import WorkersAuth.DeviceAuth.Frame
import WorkersAuth.DeviceAuth.Postgres
import WorkersAuth.Transactions.Statements

/-! A credential is replaced by one transaction of several statements.
The statements of both databases are run one by one, with the result picked out of their
answers by position, and shown to do what `Database.replaceCredential` does in one step; a
specification of the whole replacement is then proved of that step.
-/

namespace WorkersAuth.DeviceAuth

open Tables Transactions

/-- A PIN row that would be the second live one of its account: the partial unique index
refuses it.
-/
def secondPin (creds : Table String CredentialRow (fun row => row.credentialId))
    (row : CredentialRow)
    : Bool :=
  row.type = .pin && row.revokedAt.isNone
    && creds.rows.any (fun stored =>
      stored.type = .pin && stored.revokedAt.isNone && stored.accountId = row.accountId)

/-- An insert into the credentials; nothing when a constraint refuses it. -/
def insertRow (row : CredentialRow) (db : Database) : Option Database :=
  if secondPin db.creds row then none
  else (db.creds.insert row).map (fun creds => { db with creds })

/-- The row a replacement stores: `last_used_at` and `revoked_at` are `NULL`. -/
def CredentialRecord.stored (record : CredentialRecord) : CredentialRow :=
  ⟨{ record with lastUsedAt := none }, none⟩

/-- `SET revoked_at = now, updated_at = now`. -/
def CredentialRow.revoke (now : Millis) (row : CredentialRow) : CredentialRow :=
  { row with revokedAt := some now, updatedAt := now }

-----------------------------------------------------------------------------------------
-- The statements
-----------------------------------------------------------------------------------------

section

/- What a database answers about the rows a statement changed. -/
variable {α : Type}

/-- `UPDATE devices SET revoked_at = now WHERE …`; the condition sees the tables as the
statement finds them.
-/
def revokeDevices (selects : Database → DeviceRecord → Bool) (now : Millis)
    (answer : List DeviceRecord → α)
    : Statement Database α :=
  fun db => some (
    answer (db.devices.rows.filter (selects db)),
    {
      db with
      devices := db.devices.updateWhere (selects db) (fun row => { row with revokedAt := some now })
        (DeviceRecord.deviceId_revoked now)
    }
  )

/-- `UPDATE creds SET revoked_at = now, updated_at = now WHERE …` -/
def revokeLive (record : CredentialRecord) (answer : List CredentialRow → α)
    : Statement Database α :=
  fun db => some (
    answer (db.creds.rows.filter (Database.activeCredential record.accountId record.type)),
    {
      db with
      creds := db.creds.updateWhere (Database.activeCredential record.accountId record.type)
        (fun row => row.revoke record.updatedAt)
    }
  )

/-- `INSERT INTO creds …` -/
def insertStored (record : CredentialRecord) (answer : α) : Statement Database α :=
  fun db => (insertRow record.stored db).map (fun after => (answer, after))

/-- `UPDATE guards SET failed_count = 0, locked_at = NULL, updated_at = now WHERE …` -/
def clearGuards (record : CredentialRecord) (answer : List GuardRow → α) : Statement Database α :=
  fun db => some (
    answer (db.guards.rows.filter (fun row => row.accountId = record.accountId)),
    db.clearGuard record.accountId record.updatedAt
  )

end

-----------------------------------------------------------------------------------------
-- The batch over D1
-----------------------------------------------------------------------------------------

namespace D1

/-- `IS NOT`: as `!=`, with two nulls equal and a null different from every value. -/
def isNot {α : Type} [DecidableEq α] : Option α → Option α → Bool
  | none, none => false
  | none, some _ => true
  | some _, none => true
  | some first, some second => first ≠ second

/-- `account_id = ?1 AND revoked_at IS NULL AND device_id IS NOT ?3 AND EXISTS (SELECT …)`. -/
def revokesDevice (record : CredentialRecord) (exceptDeviceId : Option String) (db : Database)
    (row : DeviceRecord)
    : Bool :=
  row.accountId = record.accountId && row.revokedAt.isNone
    && isNot (some row.deviceId) exceptDeviceId
    && db.creds.rows.any (Database.activeCredential record.accountId record.type)

/-- The statements before `revokeAt`. Each statement answers its `meta.changes`. -/
def deviceStatements (record : CredentialRecord) (options : ReplaceCredentialOptions)
    : List (Statement Database Nat) :=
  match options.revokeOtherDevices with
  | some exceptDeviceId =>
      [revokeDevices (revokesDevice record exceptDeviceId) record.updatedAt List.length]
  | none => []

def replaceCredentialStatements (record : CredentialRecord) (options : ReplaceCredentialOptions)
    : List (Statement Database Nat) :=
  deviceStatements record options
    ++ [revokeLive record List.length, insertStored record 1]
    ++ if options.resetLoginGuard then [clearGuards record List.length] else []

/-- `db.batch(statements)`, and the result from the answers at two positions. -/
def replaceCredential (faults : Nat → Bool) (record : CredentialRecord)
    (options : ReplaceCredentialOptions) (db : Database)
    : Option ReplaceCredentialResult × Database :=
  let revokeAt := (deviceStatements record options).length
  let (results, after) := transaction faults (replaceCredentialStatements record options) db
  (
    results.map (fun results =>
      {
        replaced := results[revokeAt]?.getD 0 > 0
        devicesRevoked :=
          if options.revokeOtherDevices.isSome then results[0]?.getD 0 else 0
      }),
    after
  )

end D1

-----------------------------------------------------------------------------------------
-- The transaction over Postgres
-----------------------------------------------------------------------------------------

namespace Postgres

/-- `IS DISTINCT FROM`: `<>` where both are values, and else whether only one is null. -/
def isDistinctFrom {α : Type} [DecidableEq α] : Option α → Option α → Bool
  | some first, some second => first ≠ second
  | first, second => first.isNone ≠ second.isNone

/-- `… AND device_id IS DISTINCT FROM $3::text AND EXISTS (SELECT …)`. -/
def revokesDevice (record : CredentialRecord) (exceptDeviceId : Option String) (db : Database)
    (row : DeviceRecord)
    : Bool :=
  row.accountId = record.accountId && row.revokedAt.isNone
    && isDistinctFrom (some row.deviceId) exceptDeviceId
    && db.creds.rows.any (Database.activeCredential record.accountId record.type)

/-- `SELECT pg_advisory_xact_lock(…)`: one row, and nothing stored. Each statement answers
the rows it returns, here as their ids.
-/
def lock : Statement Database (List String) :=
  fun db => some ([""], db)

/-- The statements before `revokeAt`. -/
def firstStatements (record : CredentialRecord) (options : ReplaceCredentialOptions)
    : List (Statement Database (List String)) :=
  lock ::
    match options.revokeOtherDevices with
    | some exceptDeviceId =>
        [revokeDevices (revokesDevice record exceptDeviceId) record.updatedAt
          (List.map (·.deviceId))]
    | none => []

def replaceCredentialStatements (record : CredentialRecord) (options : ReplaceCredentialOptions)
    : List (Statement Database (List String)) :=
  firstStatements record options
    ++ [revokeLive record (List.map (·.credentialId)), insertStored record []]
    ++ if options.resetLoginGuard then [clearGuards record (fun _ => [])] else []

/-- `db.transaction(statements)`, and the result from the answers at two positions. -/
def replaceCredential (faults : Nat → Bool) (record : CredentialRecord)
    (options : ReplaceCredentialOptions) (db : Database)
    : Option ReplaceCredentialResult × Database :=
  let revokeAt := (firstStatements record options).length
  let (results, after) := transaction faults (replaceCredentialStatements record options) db
  (
    results.map (fun results =>
      {
        replaced := (results[revokeAt]?.map List.length).getD 0 > 0
        devicesRevoked :=
          if options.revokeOtherDevices.isSome then (results[1]?.map List.length).getD 0 else 0
      }),
    after
  )

end Postgres

-----------------------------------------------------------------------------------------
-- The statements, one after another
-----------------------------------------------------------------------------------------

/-- The two dialects compare with null alike, by cases on what is null. -/
theorem isDistinctFrom_eq_isNot {α : Type} [DecidableEq α] (first second : Option α)
    : Postgres.isDistinctFrom first second = D1.isNot first second := by
  cases first <;> cases second <;> simp [Postgres.isDistinctFrom, D1.isNot]

/-- And `IS NOT` is the difference of the model. -/
theorem isNot_eq {α : Type} [DecidableEq α] (first second : Option α)
    : D1.isNot first second = decide (first ≠ second) := by
  cases first <;> cases second <;> simp [D1.isNot]

/-- Once the live credentials of a type are revoked, no live PIN of the account stands in the
way of a new one of that type.
-/
theorem secondPin_revoked (record : CredentialRecord)
    (creds : Table String CredentialRow (fun row => row.credentialId)) (now : Millis)
    : secondPin (creds.updateWhere (Database.activeCredential record.accountId record.type)
        (fun row => row.revoke now)) record.stored = false := by
  rw [← Bool.not_eq_true]
  intro second
  simp only [secondPin, Bool.and_eq_true, List.any_eq_true, decide_eq_true_eq] at second
  obtain ⟨⟨pin, _⟩, row, member, ⟨stillPin, live⟩, account⟩ := second
  obtain ⟨old, _, rfl⟩ := List.mem_map.mp member
  have typed : record.type = .pin := pin
  have owned : (if Database.activeCredential record.accountId record.type old then
      old.revoke now else old).accountId = record.accountId := account
  cases active : Database.activeCredential record.accountId record.type old with
  | true => simp [active, CredentialRow.revoke] at live
  | false =>
      simp only [active, Bool.false_eq_true, if_false] at stillPin live owned
      simp [Database.activeCredential, stillPin, live, owned, typed] at active

/-- After the revocation only a taken id refuses the new row. -/
theorem insertRow_revoked (record : CredentialRecord) (db : Database) (now : Millis)
    : insertRow record.stored {
          db with
          creds := db.creds.updateWhere (Database.activeCredential record.accountId record.type)
            (fun row => row.revoke now)
        }
      = ((db.creds.updateWhere (Database.activeCredential record.accountId record.type)
          (fun row => row.revoke now)).insert record.stored).map
        (fun creds => { db with creds }) := by
  simp [insertRow, secondPin_revoked]

/-- The revocation, the insertion and the clearing, run one after another. -/
theorem runAll_replacement {α : Type} (record : CredentialRecord) (reset : Bool)
    (revoked : List CredentialRow → α) (inserted : α) (cleared : List GuardRow → α)
    (db : Database) (position : Nat)
    : runAll faultless position
        (revokeLive record revoked :: insertStored record inserted ::
          if reset then [clearGuards record cleared] else []) db
      = ((db.creds.updateWhere (Database.activeCredential record.accountId record.type)
          (fun row => row.revoke record.updatedAt)).insert record.stored).map
        (fun creds =>
          (
            revoked (db.creds.rows.filter
              (Database.activeCredential record.accountId record.type)) :: inserted ::
              (if reset then
                [cleared (db.guards.rows.filter (fun row => row.accountId = record.accountId))]
              else []),
            if reset then { db with creds }.clearGuard record.accountId record.updatedAt
            else { db with creds }
          )) := by
  simp only [runAll, faultless, revokeLive, insertStored, insertRow_revoked, Bool.false_eq_true,
    if_false, Option.bind_some, Option.map_map]
  cases (db.creds.updateWhere (Database.activeCredential record.accountId record.type)
      (fun row => row.revoke record.updatedAt)).insert record.stored with
  | none => rfl
  | some creds => cases reset <;> rfl

/-- Whether the account has a live credential of the type. -/
def Database.holdsLive (db : Database) (accountId : String) (type : CredentialType) : Bool :=
  db.creds.countWhere (Database.activeCredential accountId type) > 0

/-- The condition on the live credential is decided for all rows at once. -/
theorem revokesDevice_eq (record : CredentialRecord) (exceptDeviceId : Option String)
    (db : Database)
    : D1.revokesDevice record exceptDeviceId db
      = fun row => Database.otherDevice record.accountId exceptDeviceId row
        && db.holdsLive record.accountId record.type := by
  funext row
  have exists_iff : db.creds.rows.any (Database.activeCredential record.accountId record.type)
      = db.holdsLive record.accountId record.type := by
    rw [Bool.eq_iff_iff, Database.holdsLive, decide_eq_true_iff, gt_iff_lt, Table.countWhere,
      List.countP_pos_iff, List.any_eq_true]
  simp only [D1.revokesDevice, Database.otherDevice, isNot_eq, exists_iff]

/-- Both databases select the same devices. -/
theorem Postgres.revokesDevice_eq (record : CredentialRecord) (exceptDeviceId : Option String)
    : Postgres.revokesDevice record exceptDeviceId = D1.revokesDevice record exceptDeviceId := by
  funext db row
  simp only [Postgres.revokesDevice, D1.revokesDevice, isDistinctFrom_eq_isNot]

/-- Updating no row changes nothing. -/
theorem updateWhere_none {κ ρ : Type} {key : ρ → κ} (table : Table κ ρ key) (change : ρ → ρ)
    (keeps : ∀ row, key (change row) = key row)
    : table.updateWhere (fun _ => false) change keeps = table := by
  apply Table.ext
  simp [Table.updateWhere]

section

variable (record : CredentialRecord) (options : ReplaceCredentialOptions)
  (exceptDeviceId : Option String) (db : Database)

/-- The statement on the other devices revokes those of the first step of a replacement. -/
theorem revokesDevice_update (given : options.revokeOtherDevices = some exceptDeviceId)
    : {
        db with
        devices := db.devices.updateWhere (D1.revokesDevice record exceptDeviceId db)
          (fun row => { row with revokedAt := some record.updatedAt })
      } = (db.revokeOthers record options (db.holdsLive record.accountId record.type)).2 := by
  simp only [revokesDevice_eq, Database.revokeOthers, given]
  cases db.holdsLive record.accountId record.type with
  | true => simp [Database.revokeAllDevices]
  | false => simp [updateWhere_none]

/-- And as many as that step counts. -/
theorem revokesDevice_count (given : options.revokeOtherDevices = some exceptDeviceId)
    : (db.devices.rows.filter (D1.revokesDevice record exceptDeviceId db)).length
      = (db.revokeOthers record options (db.holdsLive record.accountId record.type)).1 := by
  simp only [revokesDevice_eq, Database.revokeOthers, given]
  cases db.holdsLive record.accountId record.type with
  | true => simp [Database.revokeAllDevices, Table.countWhere, List.countP_eq_length_filter]
  | false => simp

end

/-- Whether a live credential was replaced is read off the number of rows revoked. -/
theorem holdsLive_eq (db : Database) (accountId : String) (type : CredentialType)
    : db.holdsLive accountId type
      = decide ((db.creds.rows.filter (Database.activeCredential accountId type)).length > 0) := by
  rw [Database.holdsLive, Table.countWhere, List.countP_eq_length_filter]

/-- The answer and state of a replacement that did, or did not, take place. -/
def settled (db : Database) : Option (ReplaceCredentialResult × Database)
    → Option ReplaceCredentialResult × Database
  | some (result, after) => (some result, after)
  | none => (none, db)

/-- Running the statement on the devices is taking that first step. -/
theorem runAll_devices {α : Type} {record : CredentialRecord} {options : ReplaceCredentialOptions}
    {exceptDeviceId : Option String} (given : options.revokeOtherDevices = some exceptDeviceId)
    (answer : List DeviceRecord → α) (rest : List (Statement Database α)) (db : Database)
    (position : Nat)
    : runAll faultless position
        (revokeDevices (D1.revokesDevice record exceptDeviceId) record.updatedAt answer :: rest) db
      = (runAll faultless (position + 1) rest
          (db.revokeOthers record options (db.holdsLive record.accountId record.type)).2).map
        (fun (answers, last) =>
          (answer (db.devices.rows.filter (D1.revokesDevice record exceptDeviceId db)) :: answers,
            last)) := by
  rw [runAll, if_neg (by simp [faultless]), ← revokesDevice_update record options exceptDeviceId db
    given]
  rfl

/-- Locking the account answers one row and changes nothing. -/
theorem runAll_lock (rest : List (Statement Database (List String))) (db : Database)
    (position : Nat)
    : runAll faultless position (Postgres.lock :: rest) db
      = (runAll faultless (position + 1) rest db).map
        (fun (answers, last) => ([""] :: answers, last)) := by
  rw [runAll, if_neg (by simp [faultless])]
  rfl

/-- The one step of the store, after its revocation of the devices. -/
theorem replaceCredential_of_revoked {record : CredentialRecord}
    {options : ReplaceCredentialOptions} {db revoked : Database} {count : Nat}
    (first : db.revokeOthers record options (db.holdsLive record.accountId record.type)
      = (count, revoked))
    : db.replaceCredential record options
      = ((revoked.creds.updateWhere (Database.activeCredential record.accountId record.type)
          (fun row => row.revoke record.updatedAt)).insert record.stored).map
        (fun creds =>
          (
            { replaced := db.holdsLive record.accountId record.type, devicesRevoked := count },
            if options.resetLoginGuard then
              { revoked with creds }.clearGuard record.accountId record.updatedAt
            else { revoked with creds }
          )) := by
  simp only [Database.holdsLive] at first ⊢
  simp only [Database.replaceCredential, first]
  rfl

/-- Without faults the batch does what the one step of the store does, with and without the
statement on the devices.
-/
theorem D1.replaceCredential_settled (record : CredentialRecord)
    (options : ReplaceCredentialOptions) (db : Database)
    : D1.replaceCredential faultless record options db
      = settled db (db.replaceCredential record options) := by
  have sameCreds := (revokeOthers_frame db record options
    (db.holdsLive record.accountId record.type)).2.1
  have count := revokesDevice_count record options
  rcases first : db.revokeOthers record options (db.holdsLive record.accountId record.type)
    with ⟨number, revoked⟩
  rw [first] at sameCreds
  rw [replaceCredential_of_revoked first, holdsLive_eq, ← sameCreds]
  cases given : options.revokeOtherDevices with
  | none =>
      obtain ⟨rfl, rfl⟩ : 0 = number ∧ db = revoked := by
        simpa [Database.revokeOthers, given] using first
      simp only [D1.replaceCredential, D1.replaceCredentialStatements, D1.deviceStatements, given,
        transaction, List.nil_append, List.cons_append, runAll_replacement]
      cases (db.creds.updateWhere (Database.activeCredential record.accountId record.type)
          (fun row => row.revoke record.updatedAt)).insert record.stored <;> rfl
  | some exceptDeviceId =>
      have counted := count exceptDeviceId db given
      rw [first] at counted
      simp only [D1.replaceCredential, D1.replaceCredentialStatements, D1.deviceStatements, given,
        transaction, List.nil_append, List.cons_append, runAll_devices given, first,
        runAll_replacement, counted]
      cases (revoked.creds.updateWhere (Database.activeCredential record.accountId record.type)
          (fun row => row.revoke record.updatedAt)).insert record.stored <;> rfl

/-- So does the transaction over Postgres, which only locks the account first. -/
theorem Postgres.replaceCredential_settled (record : CredentialRecord)
    (options : ReplaceCredentialOptions) (db : Database)
    : Postgres.replaceCredential faultless record options db
      = settled db (db.replaceCredential record options) := by
  have sameCreds := (revokeOthers_frame db record options
    (db.holdsLive record.accountId record.type)).2.1
  have count := revokesDevice_count record options
  rcases first : db.revokeOthers record options (db.holdsLive record.accountId record.type)
    with ⟨number, revoked⟩
  rw [first] at sameCreds
  rw [replaceCredential_of_revoked first, holdsLive_eq, ← sameCreds]
  cases given : options.revokeOtherDevices with
  | none =>
      obtain ⟨rfl, rfl⟩ : 0 = number ∧ db = revoked := by
        simpa [Database.revokeOthers, given] using first
      simp only [Postgres.replaceCredential, Postgres.replaceCredentialStatements,
        Postgres.firstStatements, given, transaction, List.cons_append, List.nil_append,
        runAll_lock, runAll_replacement]
      cases (db.creds.updateWhere (Database.activeCredential record.accountId record.type)
          (fun row => row.revoke record.updatedAt)).insert record.stored with
      | none => rfl
      | some creds => simp [settled]
  | some exceptDeviceId =>
      have counted := count exceptDeviceId db given
      rw [first] at counted
      simp only [Postgres.replaceCredential, Postgres.replaceCredentialStatements,
        Postgres.firstStatements, given, Postgres.revokesDevice_eq, transaction, List.cons_append,
        List.nil_append, runAll_lock, runAll_devices given, first, runAll_replacement]
      cases (revoked.creds.updateWhere (Database.activeCredential record.accountId record.type)
          (fun row => row.revoke record.updatedAt)).insert record.stored with
      | none => rfl
      | some creds => simp [settled, counted]

-----------------------------------------------------------------------------------------
-- What a replacement is for
-----------------------------------------------------------------------------------------

/-- At most one live credential of each account and type. -/
def OneLive (db : Database) : Prop :=
  ∀ first ∈ db.creds.rows, ∀ second ∈ db.creds.rows,
    first.accountId = second.accountId → first.type = second.type
    → first.revokedAt = none → second.revokedAt = none → first = second

/-- The effect of a replacement, on each table as a whole. -/
structure Replaced (record : CredentialRecord) (options : ReplaceCredentialOptions)
    (before : Database) (result : ReplaceCredentialResult) (after : Database)
    : Prop where
  replaced : result.replaced = true
    ↔ ∃ row ∈ before.creds.rows, Database.activeCredential record.accountId record.type row
  revoked : ∀ row ∈ before.creds.rows, Database.activeCredential record.accountId record.type row
    → after.creds.find row.credentialId = some (row.revoke record.updatedAt)
  stored : after.creds.find record.credentialId = some record.stored
  onlyLive : ∀ row ∈ after.creds.rows, Database.activeCredential record.accountId record.type row
    → row = record.stored
  otherCredentials : ∀ credentialId, credentialId ≠ record.credentialId
    → (∀ row, before.creds.find credentialId = some row
      → ¬ Database.activeCredential record.accountId record.type row)
    → after.creds.find credentialId = before.creds.find credentialId
  otherDevices : ∀ exceptDeviceId, options.revokeOtherDevices = some exceptDeviceId
    → result.replaced
    → (∀ deviceId, after.devices.find deviceId = (before.devices.find deviceId).map (fun row =>
        if Database.otherDevice record.accountId exceptDeviceId row then
          { row with revokedAt := some record.updatedAt }
        else row))
      ∧ result.devicesRevoked
        = before.devices.countWhere (Database.otherDevice record.accountId exceptDeviceId)
  sameDevices : ¬ (options.revokeOtherDevices.isSome ∧ result.replaced)
    → after.devices = before.devices ∧ result.devicesRevoked = 0
  guards : ∀ accountId, after.guards.find accountId
    = (before.guards.find accountId).map (fun row =>
      if options.resetLoginGuard ∧ row.accountId = record.accountId then
        { row with failedCount := 0, lockedAt := none, updatedAt := record.updatedAt }
      else row)
  others : after.codes = before.codes ∧ after.limits = before.limits

/-- The contract of a replacement that runs so many statements on a database with `faults`: a
fault anywhere leaves the tables as they were, and without one the replacement takes place.
-/
structure MeetsContract (statements : Nat) (faults : Nat → Bool) (record : CredentialRecord)
    (options : ReplaceCredentialOptions) (db : Database)
    (outcome : Option ReplaceCredentialResult × Database)
    : Prop where
  atomic : (∃ position ≤ statements, faults position) → outcome = (none, db)
  effective : (¬ ∃ position ≤ statements, faults position)
    → ∃ result, outcome.1 = some result ∧ Replaced record options db result outcome.2
      ∧ OneLive outcome.2

variable {record : CredentialRecord} {options : ReplaceCredentialOptions} {db after : Database}
  {result : ReplaceCredentialResult}

/-- The credentials after a replacement, row by row. -/
theorem find_replaceCredential (ran : db.replaceCredential record options = some (result, after))
    (credentialId : String)
    : after.creds.find credentialId
      = if credentialId = record.credentialId then some record.stored
        else (db.creds.find credentialId).map (fun row =>
          if Database.activeCredential record.accountId record.type row then
            row.revoke record.updatedAt
          else row) := by
  have sameCreds := (revokeOthers_frame db record options
    (db.holdsLive record.accountId record.type)).2.1
  rcases first : db.revokeOthers record options (db.holdsLive record.accountId record.type)
    with ⟨number, revoked⟩
  rw [first] at sameCreds
  rw [replaceCredential_of_revoked first, sameCreds] at ran
  obtain ⟨creds, inserted, same⟩ := Option.map_eq_some_iff.mp ran
  have updated := Table.find_updateWhere db.creds
    (Database.activeCredential record.accountId record.type)
    (fun row => row.revoke record.updatedAt) (fun _ => rfl) credentialId
  have lookup := (Table.find_insert inserted credentialId).trans (congrArg
    (fun found => if credentialId = record.credentialId then some record.stored else found) updated)
  cases same
  cases options.resetLoginGuard <;> exact lookup

/-- What a replacement says of itself. -/
theorem replaceCredential_result
    (ran : db.replaceCredential record options = some (result, after))
    : result = {
        replaced := db.holdsLive record.accountId record.type
        devicesRevoked :=
          (db.revokeOthers record options (db.holdsLive record.accountId record.type)).1
      }
      ∧ after.devices
        = (db.revokeOthers record options (db.holdsLive record.accountId record.type)).2.devices := by
  rcases first : db.revokeOthers record options (db.holdsLive record.accountId record.type)
    with ⟨number, revoked⟩
  rw [replaceCredential_of_revoked first] at ran
  obtain ⟨creds, _, same⟩ := Option.map_eq_some_iff.mp ran
  cases same
  cases options.resetLoginGuard <;> exact ⟨rfl, rfl⟩

/-- A live credential is held when some row is one. -/
theorem holdsLive_iff {accountId : String} {type : CredentialType}
    : db.holdsLive accountId type = true
      ↔ ∃ row ∈ db.creds.rows, Database.activeCredential accountId type row := by
  rw [Database.holdsLive, decide_eq_true_iff, gt_iff_lt, Table.countWhere, List.countP_pos_iff]

/-- Every replacement of the store has the effect it is for. -/
theorem replaceCredential_replaced
    (ran : db.replaceCredential record options = some (result, after))
    (fresh : db.creds.find record.credentialId = none)
    : Replaced record options db result after := by
  obtain ⟨rfl, devices⟩ := replaceCredential_result ran
  obtain ⟨codes, limits, guards⟩ := replaceCredential_frame ran
  have lookup := find_replaceCredential ran
  have different {row : CredentialRow} (member : row ∈ db.creds.rows)
      : row.credentialId ≠ record.credentialId := by
    intro same
    rw [Table.mem_rows_iff, same, fresh] at member
    contradiction
  refine ⟨holdsLive_iff, ?revoked, ?stored, ?onlyLive, ?otherCredentials, ?otherDevices,
    ?sameDevices, ?guards, codes, limits⟩
  case revoked =>
    intro row member active
    rw [lookup, if_neg (different member), Table.mem_rows_iff.mp member]
    simp [active]
  case stored => simp [lookup]
  case onlyLive =>
    intro row member active
    have found := Table.mem_rows_iff.mp member
    rw [lookup] at found
    split at found
    · exact (Option.some.inj found).symm
    · obtain ⟨old, _, changed⟩ := Option.map_eq_some_iff.mp found
      split at changed
      · cases changed
        simp [Database.activeCredential, CredentialRow.revoke] at active
      · next inactive => exact absurd (changed ▸ active) inactive
  case otherCredentials =>
    intro credentialId other inactive
    rw [lookup, if_neg other]
    cases found : db.creds.find credentialId with
    | none => rfl
    | some row => simp [inactive row found]
  case otherDevices =>
    intro exceptDeviceId given replaced
    have live : db.holdsLive record.accountId record.type = true := replaced
    simp only [Database.revokeOthers, given, live, if_true] at devices ⊢
    rw [devices]
    exact ⟨fun deviceId => Table.find_updateWhere db.devices
      (Database.otherDevice record.accountId exceptDeviceId)
      (fun row => { row with revokedAt := some record.updatedAt }) (fun _ => rfl) deviceId, rfl⟩
  case sameDevices =>
    intro stays
    rw [devices]
    simp only [Database.revokeOthers]
    split
    · next exceptDeviceId given =>
        have none_live : db.holdsLive record.accountId record.type ≠ true := by
          intro live
          exact stays ⟨by simp [given], live⟩
        simp [none_live]
    · exact ⟨rfl, rfl⟩
  case guards =>
    intro accountId
    rw [guards]
    cases options.resetLoginGuard with
    | true => simp [Database.clearGuard]
    | false => simp

/-- With at most one live credential of each account and type before, there is at most one
after: the new one took the place of the one revoked.
-/
theorem replaceCredential_oneLive
    (ran : db.replaceCredential record options = some (result, after))
    (fresh : db.creds.find record.credentialId = none) (single : OneLive db)
    : OneLive after := by
  have effect := replaceCredential_replaced ran fresh
  have active_iff {row : CredentialRow} (live : row.revokedAt = none)
      : Database.activeCredential record.accountId record.type row
        ↔ row.accountId = record.accountId ∧ row.type = record.type := by
    simp [Database.activeCredential, live]
  have old {row : CredentialRow} (member : row ∈ after.creds.rows)
      (inactive : ¬ Database.activeCredential record.accountId record.type row)
      (live : row.revokedAt = none)
      : row ∈ db.creds.rows := by
    have found := Table.mem_rows_iff.mp member
    rw [find_replaceCredential ran] at found
    split at found
    · cases found
      exact absurd (by simp [Database.activeCredential, CredentialRecord.stored]) inactive
    · obtain ⟨before, stored, changed⟩ := Option.map_eq_some_iff.mp found
      split at changed
      · cases changed
        simp [CredentialRow.revoke] at live
      · cases changed
        exact List.mem_of_find?_eq_some stored
  intro first firstMember second secondMember account type firstLive secondLive
  by_cases active : Database.activeCredential record.accountId record.type first
  · have other : Database.activeCredential record.accountId record.type second := by
      rw [active_iff secondLive, ← account, ← type]
      exact (active_iff firstLive).mp active
    rw [effect.onlyLive first firstMember active, effect.onlyLive second secondMember other]
  · have other : ¬ Database.activeCredential record.accountId record.type second := by
      rw [active_iff secondLive, ← account, ← type]
      exact fun same => active ((active_iff firstLive).mpr same)
    exact single first (old firstMember active firstLive) second
      (old secondMember other secondLive) account type firstLive secondLive

/-- A replacement under a fresh id is not refused. -/
theorem replaceCredential_fresh (record : CredentialRecord) (options : ReplaceCredentialOptions)
    (db : Database) (fresh : db.creds.find record.credentialId = none)
    : ∃ result after, db.replaceCredential record options = some (result, after) := by
  have sameCreds := (revokeOthers_frame db record options
    (db.holdsLive record.accountId record.type)).2.1
  rcases first : db.revokeOthers record options (db.holdsLive record.accountId record.type)
    with ⟨number, revoked⟩
  rw [first] at sameCreds
  rw [replaceCredential_of_revoked first, sameCreds]
  cases inserted : (db.creds.updateWhere (Database.activeCredential record.accountId record.type)
      (fun row => row.revoke record.updatedAt)).insert record.stored with
  | some creds => exact ⟨_, _, rfl⟩
  | none =>
      have taken := Table.insert_eq_none_iff.mp inserted
      have free := Table.find_updateWhere db.creds
        (Database.activeCredential record.accountId record.type)
        (fun row => row.revoke record.updatedAt) (fun _ => rfl) record.credentialId
      rw [fresh] at free
      rw [show (record.stored).credentialId = record.credentialId from rfl, free] at taken
      contradiction

-----------------------------------------------------------------------------------------
-- Both databases meet the contract
-----------------------------------------------------------------------------------------

/-- The batch with faults is rolled back, or does what the one step does. -/
theorem D1.replaceCredential_eq (faults : Nat → Bool) (record : CredentialRecord)
    (options : ReplaceCredentialOptions) (db : Database)
    : D1.replaceCredential faults record options db
      = if ∃ position ≤ (D1.replaceCredentialStatements record options).length, faults position then
          (none, db)
        else settled db (db.replaceCredential record options) := by
  rw [← D1.replaceCredential_settled]
  simp only [D1.replaceCredential]
  rw [transaction_faults]
  by_cases fault : ∃ position ≤ (D1.replaceCredentialStatements record options).length,
      faults position
  · simp only [if_pos fault, Option.map_none]
  · simp only [if_neg fault]

/-- So is the transaction. -/
theorem Postgres.replaceCredential_eq (faults : Nat → Bool) (record : CredentialRecord)
    (options : ReplaceCredentialOptions) (db : Database)
    : Postgres.replaceCredential faults record options db
      = if ∃ position ≤ (Postgres.replaceCredentialStatements record options).length,
            faults position then
          (none, db)
        else settled db (db.replaceCredential record options) := by
  rw [← Postgres.replaceCredential_settled]
  simp only [Postgres.replaceCredential]
  rw [transaction_faults]
  by_cases fault : ∃ position ≤ (Postgres.replaceCredentialStatements record options).length,
      faults position
  · simp only [if_pos fault, Option.map_none]
  · simp only [if_neg fault]

/-- The transaction has one statement more, the lock. -/
theorem Postgres.length_statements (record : CredentialRecord) (options : ReplaceCredentialOptions)
    : (Postgres.replaceCredentialStatements record options).length
      = (D1.replaceCredentialStatements record options).length + 1 := by
  obtain ⟨reset, others⟩ := options
  cases others <;> cases reset <;> rfl

/-- A replacement that is rolled back or done in one step meets the contract. -/
theorem settled_meets {faults : Nat → Bool} {statements : Nat}
    {outcome : Option ReplaceCredentialResult × Database} (record : CredentialRecord)
    (options : ReplaceCredentialOptions) (db : Database)
    (fresh : db.creds.find record.credentialId = none) (single : OneLive db)
    (same : outcome = if ∃ position ≤ statements, faults position then (none, db)
      else settled db (db.replaceCredential record options))
    : MeetsContract statements faults record options db outcome := by
  obtain ⟨result, after, ran⟩ := replaceCredential_fresh record options db fresh
  constructor
  case atomic =>
    intro fault
    rw [same, if_pos fault]
  case effective =>
    intro noFault
    rw [same, if_neg noFault, ran]
    exact ⟨result, rfl, replaceCredential_replaced ran fresh,
      replaceCredential_oneLive ran fresh single⟩

/-- Replacing a credential meets its contract on both databases, with faults at any of the
statements or the commit, and the two databases agree: with the account locked, the statements
over Postgres give the result and the tables that those over D1 give.
-/
theorem replaceCredential_meets_contract (record : CredentialRecord)
    (options : ReplaceCredentialOptions) (db : Database)
    (fresh : db.creds.find record.credentialId = none) (single : OneLive db)
    (faults : Nat → Bool)
    : MeetsContract (D1.replaceCredentialStatements record options).length faults record options db
        (D1.replaceCredential faults record options db)
      ∧ MeetsContract (Postgres.replaceCredentialStatements record options).length faults record
        options db (Postgres.replaceCredential faults record options db)
      ∧ Postgres.replaceCredential faults record options db
        = if faults 0 then (none, db)
          else D1.replaceCredential (fun position => faults (position + 1)) record options db := by
  refine ⟨settled_meets record options db fresh single (D1.replaceCredential_eq ..),
    settled_meets record options db fresh single (Postgres.replaceCredential_eq ..), ?agree⟩
  case agree =>
    have reached : (∃ position ≤ (Postgres.replaceCredentialStatements record options).length,
          faults position)
        ↔ faults 0 ∨ ∃ position ≤ (D1.replaceCredentialStatements record options).length,
          faults (position + 1) := by
      rw [Postgres.length_statements]
      constructor
      · intro ⟨position, bound, fault⟩
        cases position with
        | zero => exact .inl fault
        | succ position => exact .inr ⟨position, Nat.le_of_succ_le_succ bound, fault⟩
      · intro fault
        rcases fault with fault | ⟨position, bound, fault⟩
        · exact ⟨0, Nat.zero_le _, fault⟩
        · exact ⟨position + 1, Nat.succ_le_succ bound, fault⟩
    rw [Postgres.replaceCredential_eq, D1.replaceCredential_eq, if_congr reached rfl rfl]
    cases faults 0 <;> simp

end WorkersAuth.DeviceAuth

-----------------------------------------------------------------------------------------
-- A replacement
-----------------------------------------------------------------------------------------

namespace WorkersAuth.Sample

open DeviceAuth Tables Transactions

def accountDevice (deviceId : String) : DeviceRecord :=
  ⟨deviceId, "acc", "a@x.jp", "hash", none, 0, 0, 1000, 2000, none⟩

def oldPin : CredentialRow :=
  ⟨⟨"old", "acc", .pin, none, [], 10, 10, some 20⟩, none⟩

/-- An account with a PIN, two devices and three failed attempts. -/
def pinAccount : Database :=
  {
    Database.empty with
    devices := ⟨[accountDevice "phone", accountDevice "laptop"], by decide⟩
    creds := ⟨[oldPin], by decide⟩
    guards := ⟨[⟨"acc", 3, none, 30⟩], by decide⟩
  }

def newPin : CredentialRecord := ⟨"new", "acc", .pin, none, [], 50, 50, none⟩

/-- The PIN is replaced on the phone, which revokes the laptop, on both databases; and a fault
at the insertion leaves everything as it was.
-/
theorem replaceCredential_meets_contract_sample
    : (D1.replaceCredential faultless newPin ⟨true, some (some "phone")⟩ pinAccount).1.map
        (fun result => (result.replaced, result.devicesRevoked)) = some (true, 1)
      ∧ MeetsContract 4 faultless newPin ⟨true, some (some "phone")⟩ pinAccount
        (D1.replaceCredential faultless newPin ⟨true, some (some "phone")⟩ pinAccount)
      ∧ MeetsContract 4 (fun position => position = 2) newPin ⟨true, some (some "phone")⟩ pinAccount
        (D1.replaceCredential (fun position => position = 2) newPin ⟨true, some (some "phone")⟩
          pinAccount)
      ∧ MeetsContract 5 faultless newPin ⟨true, some (some "phone")⟩ pinAccount
        (Postgres.replaceCredential faultless newPin ⟨true, some (some "phone")⟩ pinAccount) := by
  have single : OneLive pinAccount := by
    intro first firstMember second secondMember _ _ _ _
    rw [List.mem_singleton.mp firstMember, List.mem_singleton.mp secondMember]
  have meets := replaceCredential_meets_contract newPin ⟨true, some (some "phone")⟩ pinAccount
    (by rfl) single
  exact ⟨by decide +kernel, (meets faultless).1, (meets _).1, (meets faultless).2.1⟩

end WorkersAuth.Sample

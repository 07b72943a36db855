import WorkersAuth.DeviceAuth.Store

/-! `pgDeviceAuthStore`: the statements on email codes over Postgres.
They act on the same tables; a row is locked while a statement changes it, so one call is
again one atomic step.
-/

namespace WorkersAuth.DeviceAuth.Postgres

variable (db : Database)

/-- `INSERT INTO codes AS c … ON CONFLICT (email) DO UPDATE`. -/
def putEmailCode (record : EmailCodeRecord) : Database :=
  {
    db with
    codes := db.codes.upsert ⟨record, 0⟩
      (fun c =>
        {
          email := c.email
          codeHash := record.codeHash
          keyId := record.keyId
          attempts := if c.attemptsResetAt > record.createdAt then c.attempts else 0
          attemptsResetAt :=
            if c.attemptsResetAt > record.createdAt then c.attemptsResetAt else record.attemptsResetAt
          expiresAt := record.expiresAt
          createdAt := record.createdAt
        })
      (fun _ => rfl)
  }

def reserveEmailCodeAttempt (email : String) (now : Millis) (maxAttempts : Nat)
    : Option ReservedEmailCode × Database :=
  let (row, codes) := db.codes.updateReturning email
    (fun row => row.attempts < maxAttempts && row.expiresAt > now)
    (fun row => { row with attempts := row.attempts + 1 }) EmailCodeRow.email_attempted
  (row.map (fun row => ⟨row.codeHash, row.keyId, row.attempts⟩), { db with codes })

/-- Both databases store a code alike. -/
theorem putEmailCode_eq (record : EmailCodeRecord) : putEmailCode db record = db.putEmailCode record :=
  rfl

/-- And both reserve an attempt alike. -/
theorem reserveEmailCodeAttempt_eq (email : String) (now : Millis) (maxAttempts : Nat)
    : reserveEmailCodeAttempt db email now maxAttempts
      = db.reserveEmailCodeAttempt email now maxAttempts :=
  rfl

end WorkersAuth.DeviceAuth.Postgres

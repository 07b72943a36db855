import WorkersAuth.Calls

/-! Which tables each store call can change. Everything else is as it was. -/

namespace WorkersAuth

open DeviceAuth

inductive TableName where
  | codes
  | devices
  | creds
  | guards
  | limits

/-- The tables a call writes to. -/
def StoreCall.writes : StoreCall → TableName → Prop
  | .hitRateLimit .., .limits => True
  | .reserveRateLimit .., .limits => True
  | .refundRateLimit .., .limits => True
  | .hitCircuitBreaker .., .limits => True
  | .putEmailCode _, .codes => True
  | .reserveEmailCodeAttempt .., .codes => True
  | .consumeEmailCode .., .codes => True
  | .createDevice _, .devices => True
  | .touchDevice .., .devices => True
  | .revokeDevice .., .devices => True
  | .revokeAllDevices .., .devices => True
  | .replaceCredential .., .devices => True
  | .replaceCredential .., .creds => True
  | .replaceCredential _ options, .guards => options.resetLoginGuard
  | .markCredentialUsed .., .creds => True
  | .reserveLoginAttempt .., .guards => True
  | .lockAccount .., .guards => True
  | .resetLoginGuard .., .guards => True
  | _, _ => False

variable {call : StoreCall} {reply : call.Reply} {db after : Database}

/-- Revoking the other devices writes devices only. -/
theorem revokeOthers_frame (db : Database) (record : CredentialRecord)
    (options : ReplaceCredentialOptions) (replaced : Bool)
    : (db.revokeOthers record options replaced).2.codes = db.codes
      ∧ (db.revokeOthers record options replaced).2.creds = db.creds
      ∧ (db.revokeOthers record options replaced).2.guards = db.guards
      ∧ (db.revokeOthers record options replaced).2.limits = db.limits := by
  unfold Database.revokeOthers
  split
  · split <;> exact ⟨rfl, rfl, rfl, rfl⟩
  · exact ⟨rfl, rfl, rfl, rfl⟩

/-- A replacement writes neither codes nor counters, and a guard only to clear it. -/
theorem replaceCredential_frame {record : CredentialRecord} {options : ReplaceCredentialOptions}
    {result : ReplaceCredentialResult}
    (ran : db.replaceCredential record options = some (result, after))
    : after.codes = db.codes ∧ after.limits = db.limits
      ∧ after.guards
        = if options.resetLoginGuard then (db.clearGuard record.accountId record.updatedAt).guards
          else db.guards := by
  simp only [Database.replaceCredential, Option.map_eq_some_iff, Prod.mk.injEq] at ran
  obtain ⟨creds, _, _, rfl⟩ := ran
  obtain ⟨codes, _, guards, limits⟩ := revokeOthers_frame db record options
    (db.creds.countWhere (Database.activeCredential record.accountId record.type) > 0)
  split
  · exact ⟨codes, limits, by simp only [Database.clearGuard, guards]⟩
  · exact ⟨codes, limits, guards⟩

theorem createDevice_frame {record : DeviceRecord} {result : Unit}
    (ran : (db.createDevice record).map (fun after => ((), after)) = some (result, after))
    : after.codes = db.codes ∧ after.creds = db.creds ∧ after.guards = db.guards
      ∧ after.limits = db.limits := by
  simp only [Database.createDevice, Option.map_map, Option.map_eq_some_iff,
    Function.comp_apply, Prod.mk.injEq] at ran
  obtain ⟨devices, _, _, rfl⟩ := ran
  exact ⟨rfl, rfl, rfl, rfl⟩

/-- A call that does not write codes leaves them as they were, by cases on the call. -/
theorem StoreCall.codes_eq (ran : call.run db = some (reply, after)) (frame : ¬call.writes .codes)
    : after.codes = db.codes := by
  cases call
  case replaceCredential => exact (replaceCredential_frame ran).1
  case createDevice => exact (createDevice_frame ran).1
  all_goals first | exact absurd trivial frame | (cases ran; rfl)

/-- A call that does not write credentials leaves them as they were, by cases on the call. -/
theorem StoreCall.creds_eq (ran : call.run db = some (reply, after)) (frame : ¬call.writes .creds)
    : after.creds = db.creds := by
  cases call
  case replaceCredential => exact absurd trivial frame
  case createDevice => exact (createDevice_frame ran).2.1
  all_goals first | exact absurd trivial frame | (cases ran; rfl)

/-- A call that does not write counters leaves them as they were, by cases on the call. -/
theorem StoreCall.limits_eq (ran : call.run db = some (reply, after))
    (frame : ¬call.writes .limits)
    : after.limits = db.limits := by
  cases call
  case replaceCredential => exact (replaceCredential_frame ran).2.1
  case createDevice => exact (createDevice_frame ran).2.2.2
  all_goals first | exact absurd trivial frame | (cases ran; rfl)

/-- A call that does not write guards leaves them as they were, by cases on the call. -/
theorem StoreCall.guards_eq (ran : call.run db = some (reply, after))
    (frame : ¬call.writes .guards)
    : after.guards = db.guards := by
  cases call
  case replaceCredential => exact (replaceCredential_frame ran).2.2.trans (if_neg frame)
  case createDevice => exact (createDevice_frame ran).2.2.1
  all_goals first | exact absurd trivial frame | (cases ran; rfl)

end WorkersAuth

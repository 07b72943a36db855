import WorkersAuth.DeviceAuth.Frame

/-! What a store call can do to one trusted device.
A device is created once, its expiry is moved while it is live, and it is revoked; nothing
else ever happens to its row, and nothing at all to what it was registered with.
-/

namespace WorkersAuth.DeviceAuth

open Tables

/-- The row of a device before and after a call. -/
inductive DeviceMove (deviceId : String)
    : StoreCall → Option DeviceRecord → Option DeviceRecord → Prop
  | kept (call : StoreCall) (found : Option DeviceRecord) : DeviceMove deviceId call found found
  | created {record : DeviceRecord} (same : record.deviceId = deviceId)
    : DeviceMove deviceId (.createDevice record) none (some { record with revokedAt := none })
  | touched {row : DeviceRecord} {now idleExpiresAt : Millis}
    (live : Database.deviceLive now row)
    : DeviceMove deviceId (.touchDevice deviceId now idleExpiresAt) (some row)
        (some { row with
          lastUsedAt := now, idleExpiresAt := min idleExpiresAt row.absoluteExpiresAt })
  | revoked (call : StoreCall) (row : DeviceRecord) (now : Millis)
    : DeviceMove deviceId call (some row) (some { row with revokedAt := some now })

variable {deviceId : String} {db after : Database}

variable (deviceId) in
/-- Revoking whatever a condition selects keeps or revokes each device. -/
theorem DeviceMove.of_revocation (call : StoreCall) (selects : DeviceRecord → Bool) (now : Millis)
    (devices : Table String DeviceRecord (fun row => row.deviceId))
    : DeviceMove deviceId call (devices.find deviceId)
        ((devices.updateWhere selects (fun row => { row with revokedAt := some now })
          (fun _ => rfl)).find deviceId) := by
  rw [Table.find_updateWhere]
  cases found : devices.find deviceId with
  | none => exact .kept call none
  | some row =>
      simp only [Option.map_some]
      split
      · exact .revoked call row now
      · exact .kept call (some row)

/-- Registering a device is its creation and leaves all others alone. -/
theorem createDevice_move {record : DeviceRecord} (ran : db.createDevice record = some after)
    : DeviceMove deviceId (.createDevice record) (db.devices.find deviceId)
        (after.devices.find deviceId) := by
  obtain ⟨devices, inserted, rfl⟩ := Option.map_eq_some_iff.mp ran
  rw [show ({ db with devices } : Database).devices.find deviceId = _ from
    Table.find_insert inserted deviceId]
  split
  · next same =>
      subst same
      have free : db.devices.find record.deviceId = none := by
        rw [← Option.not_isSome_iff_eq_none]
        intro taken
        have refused := inserted.symm.trans (Table.insert_eq_none_iff.mpr taken)
        contradiction
      rw [free]
      exact .created rfl
  · exact .kept ..

variable (deviceId) in
/-- Touching a device moves its expiry if it is live, and leaves all others alone. -/
theorem touchDevice_move (db : Database) (touched : String) (now idleExpiresAt : Millis)
    : DeviceMove deviceId (.touchDevice touched now idleExpiresAt) (db.devices.find deviceId)
        ((db.touchDevice touched now idleExpiresAt).2.devices.find deviceId) := by
  have after_eq : (db.touchDevice touched now idleExpiresAt).2.devices
      = (db.devices.updateReturning touched (Database.deviceLive now)
          (fun row => { row with
            lastUsedAt := now, idleExpiresAt := min idleExpiresAt row.absoluteExpiresAt })).2 := rfl
  rw [after_eq, Table.find_updateReturning]
  split
  · next same =>
      subst same
      cases found : db.devices.find deviceId with
      | none => exact .kept ..
      | some row =>
          simp only [Option.map_some]
          split
          · next live => exact .touched live
          · exact .kept ..
  · exact .kept ..

variable (deviceId) in
/-- Revoking the other devices keeps or revokes each device. -/
theorem revokeOthers_move (call : StoreCall) (db : Database) (record : CredentialRecord)
    (options : ReplaceCredentialOptions) (replaced : Bool)
    : DeviceMove deviceId call (db.devices.find deviceId)
        ((db.revokeOthers record options replaced).2.devices.find deviceId) := by
  unfold Database.revokeOthers
  split
  · split
    · exact .of_revocation _ _ _ _ _
    · exact .kept ..
  · exact .kept ..

/-- Replacing a credential keeps or revokes each device. -/
theorem replaceCredential_move {record : CredentialRecord} {options : ReplaceCredentialOptions}
    {result : ReplaceCredentialResult}
    (ran : db.replaceCredential record options = some (result, after))
    : DeviceMove deviceId (.replaceCredential record options) (db.devices.find deviceId)
        (after.devices.find deviceId) := by
  simp only [Database.replaceCredential, Option.map_eq_some_iff, Prod.mk.injEq] at ran
  obtain ⟨creds, _, _, rfl⟩ := ran
  have moved := revokeOthers_move deviceId (.replaceCredential record options) db record options
    (db.creds.countWhere (Database.activeCredential record.accountId record.type) > 0)
  split <;> exact moved

/-- What a call can do to a device, by cases on the call. -/
theorem StoreCall.device_move {call : StoreCall} {reply : call.Reply}
    (ran : call.run db = some (reply, after)) (deviceId : String)
    : DeviceMove deviceId call (db.devices.find deviceId) (after.devices.find deviceId) := by
  have untouched (same : after.devices = db.devices)
      : DeviceMove deviceId call (db.devices.find deviceId) (after.devices.find deviceId) :=
    same ▸ .kept call _
  cases call
  case createDevice record =>
    obtain ⟨_, created, same⟩ := Option.map_eq_some_iff.mp ran
    exact createDevice_move (created.trans (congrArg (some ∘ Prod.snd) same))
  case touchDevice touched now idleExpiresAt =>
    have moved := touchDevice_move deviceId db touched now idleExpiresAt
    rwa [show db.touchDevice touched now idleExpiresAt = (reply, after) from Option.some.inj ran]
      at moved
  case revokeDevice account revoked now =>
    have moved := DeviceMove.of_revocation deviceId (.revokeDevice account revoked now)
      (fun row => row.deviceId = revoked && (row.accountId = account && row.revokedAt.isNone)) now
      db.devices
    rwa [show db.devices.updateWhere _ _ _ = after.devices from
      congrArg (fun result => result.2.devices) (Option.some.inj ran)] at moved
  case revokeAllDevices account now exceptDeviceId =>
    have moved := DeviceMove.of_revocation deviceId
      (.revokeAllDevices account now exceptDeviceId)
      (Database.otherDevice account exceptDeviceId) now db.devices
    rwa [show db.devices.updateWhere _ _ _ = after.devices from
      congrArg (fun result => result.2.devices) (Option.some.inj ran)] at moved
  case replaceCredential record options => exact replaceCredential_move ran
  all_goals
    obtain rfl := congrArg Prod.snd (Option.some.inj ran)
    exact untouched rfl

-----------------------------------------------------------------------------------------
-- What a device was registered with
-----------------------------------------------------------------------------------------

/-- The same registration: everything but the last use, the idle expiry and the revocation. -/
structure SameDevice (first second : DeviceRecord) : Prop where
  accountId : second.accountId = first.accountId
  email : second.email = first.email
  secretHash : second.secretHash = first.secretHash
  absoluteExpiresAt : second.absoluteExpiresAt = first.absoluteExpiresAt

theorem SameDevice.refl (device : DeviceRecord) : SameDevice device device := ⟨rfl, rfl, rfl, rfl⟩

theorem SameDevice.trans {first second third : DeviceRecord} (front : SameDevice first second)
    (back : SameDevice second third)
    : SameDevice first third :=
  ⟨back.accountId.trans front.accountId, back.email.trans front.email,
    back.secretHash.trans front.secretHash, back.absoluteExpiresAt.trans front.absoluteExpiresAt⟩

theorem SameDevice.symm {first second : DeviceRecord} (same : SameDevice first second)
    : SameDevice second first :=
  ⟨same.accountId.symm, same.email.symm, same.secretHash.symm, same.absoluteExpiresAt.symm⟩

/-- A call keeps a stored device and its registration, by cases on the move. -/
theorem DeviceMove.same {call : StoreCall} {row : DeviceRecord} {found : Option DeviceRecord}
    (moved : DeviceMove deviceId call (some row) found)
    : ∃ after, found = some after ∧ SameDevice row after := by
  cases moved with
  | kept => exact ⟨row, rfl, .refl row⟩
  | touched | revoked => exact ⟨_, rfl, ⟨rfl, rfl, rfl, rfl⟩⟩

end WorkersAuth.DeviceAuth

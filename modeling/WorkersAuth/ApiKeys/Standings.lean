import WorkersAuth.ApiKeys.Verification

/-! What each call of a store does to what the store shows of a key id.
The KV keys of different ids are different, except that an id which begins with `revoked:` has the
key of another id's revocation.
-/

namespace WorkersAuth.ApiKeys

open Atomic Encodings Tables

variable {storage : Storage} {backend : Backend} {keyPrefix keyId sought : String}

-----------------------------------------------------------------------------------------
-- KV keys
-----------------------------------------------------------------------------------------

@[simp] theorem recordKey_inj : recordKey keyPrefix sought = recordKey keyPrefix keyId ↔ sought = keyId := by
  simp [recordKey]

@[simp] theorem revokedKey_inj
    : revokedKey keyPrefix sought = revokedKey keyPrefix keyId ↔ sought = keyId := by
  simp [revokedKey, String.append_assoc]

/-- A record's key is that of a revocation only for an id that begins with `revoked:`. -/
@[simp] theorem recordKey_eq_revokedKey
    : recordKey keyPrefix keyId = revokedKey keyPrefix sought ↔ keyId = "revoked:" ++ sought := by
  simp [recordKey, revokedKey, String.append_assoc]

@[simp] theorem text_putText {key : String} {text : KvText}
    : (storage.putText key text).text sought = if sought = key then some text else storage.text sought := by
  unfold Storage.putText Storage.text
  rw [Table.find_upsert]
  split
  · cases storage.kv.find key <;> rfl
  · rfl

-----------------------------------------------------------------------------------------
-- `touch`
-----------------------------------------------------------------------------------------

/-- The time of the last use is not shown to `verify`. -/
theorem standing_kvRecord_touched {text : KvText} {marker : Option KvText} {lastUsedAt : Option ℚ}
    {rewritten : KvText} (touched : text.touched lastUsedAt = some rewritten)
    : (kvRecord (some rewritten) marker).map StoredApiKey.standing
      = (kvRecord (some text) marker).map StoredApiKey.standing := by
  cases text with
  | record stored =>
      cases touched
      cases marker <;> rfl
  | revokedAt time =>
      simp only [KvText.touched, Option.ite_none_left_eq_some, Option.some.injEq] at touched
      obtain ⟨_, rfl⟩ := touched
      cases marker <;> rfl
  | lastUsedAt time =>
      cases touched
      cases marker <;> rfl

/-- `touch` changes nothing of a row that `verify` reads. -/
theorem standing_touchRow {lastUsedAt : Option ℚ}
    : Backend.d1.standing (storage.touchRow keyId lastUsedAt) sought
      = Backend.d1.standing storage sought := by
  simp only [Backend.standing, Backend.look, Storage.touchRow, Table.find_updateWhere,
    Option.map_map]
  congr 1
  funext row
  by_cases same : row.keyId = keyId <;>
    simp [same, ApiKeyRow.toRecord, StoredApiKey.standing, userOf]

/-- `touch` leaves every KV text but that under its own key. -/
theorem text_touched {key : String} {lastUsedAt : JsNumber} (other : key ≠ recordKey keyPrefix keyId)
    : ((Backend.kv keyPrefix).touched storage keyId lastUsedAt).text key = storage.text key := by
  simp only [Backend.touched]
  cases (storage.text (recordKey keyPrefix keyId)).bind (KvText.touched lastUsedAt.written) with
  | none => rfl
  | some text =>
      rw [Option.map_some, Option.getD_some, text_putText, if_neg other]

/-- `touch` changes nothing that `verify` reads. -/
theorem standing_touched {lastUsedAt : JsNumber} (apart : keyId ≠ "revoked:" ++ sought)
    : backend.standing (backend.touched storage keyId lastUsedAt) sought
      = backend.standing storage sought := by
  cases backend with
  | d1 => exact standing_touchRow
  | kv keyPrefix =>
      have marker : revokedKey keyPrefix sought ≠ recordKey keyPrefix keyId := by
        rw [Ne, eq_comm, recordKey_eq_revokedKey]
        exact apart
      simp only [Backend.standing, Backend.look, text_touched marker]
      by_cases same : sought = keyId
      · subst same
        simp only [Backend.touched]
        cases present : storage.text (recordKey keyPrefix sought) with
        | none => simp [present]
        | some text =>
            cases touched : text.touched lastUsedAt.written with
            | none => simp [touched, present]
            | some rewritten =>
                rw [Option.bind_some, touched, Option.map_some, Option.getD_some, text_putText,
                  if_pos rfl]
                exact standing_kvRecord_touched touched
      · have other : recordKey keyPrefix sought ≠ recordKey keyPrefix keyId := by
          rwa [Ne, recordKey_inj]
        rw [text_touched other]

-----------------------------------------------------------------------------------------
-- `revoke`
-----------------------------------------------------------------------------------------

/-- What `verify` depends on once a record has been revoked. -/
def Standing.revoke (standing : Standing) : Standing := { standing with revoked := true }

/-- What both texts show once the second is a time other than zero. -/
theorem standing_kvRecord_revoked {record marker : Option KvText} {time : KvText}
    (revoked : time.number.truthy = true)
    : (kvRecord record (some time)).map StoredApiKey.standing
      = ((kvRecord record marker).map StoredApiKey.standing).map Standing.revoke := by
  rcases record with _ | (stored | _ | _)
  · cases marker <;> rfl
  · cases marker <;> simp [kvRecord, StoredApiKey.standing, Standing.revoke, revoked, userOf]
  · cases marker <;> rfl
  · cases marker <;> rfl

/-- What a row shows once it is revoked, unless it has the time zero. -/
theorem standing_row_revoked {row : ApiKeyRow} {readAt : Millis} (nonzero : readAt ≠ 0)
    (unzeroed : row.revokedAt ≠ some 0)
    : (if row.revokedAt.isNone then { row with revokedAt := some readAt } else row).toRecord.standing
      = row.toRecord.standing.revoke := by
  cases revokedAt : row.revokedAt with
  | none =>
      simp [ApiKeyRow.toRecord, StoredApiKey.standing, Standing.revoke, JsNumber.truthy, nonzero,
        userOf]
  | some time =>
      have nonzero : time ≠ 0 := fun zero => unzeroed (by rw [revokedAt, zero])
      simp [ApiKeyRow.toRecord, StoredApiKey.standing, Standing.revoke, JsNumber.truthy, nonzero,
        revokedAt]

/-- A time other than zero counts as a revocation in KV. -/
theorem standing_revokedAt {readAt : Millis} (nonzero : readAt ≠ 0) (apart : sought ≠ "revoked:" ++ keyId)
    : (Backend.kv keyPrefix).standing
        (storage.putText (revokedKey keyPrefix keyId) (.revokedAt readAt)) sought
      = if sought = keyId then ((Backend.kv keyPrefix).standing storage sought).map Standing.revoke
        else (Backend.kv keyPrefix).standing storage sought := by
  have record : recordKey keyPrefix sought ≠ revokedKey keyPrefix keyId := by
    rw [Ne, recordKey_eq_revokedKey]
    exact apart
  simp only [Backend.standing, Backend.look, text_putText, if_neg record, revokedKey_inj]
  by_cases same : sought = keyId
  · rw [if_pos same, if_pos same]
    exact standing_kvRecord_revoked (by simp [KvText.number, JsNumber.truthy, nonzero])
  · rw [if_neg same, if_neg same]

/-- A time other than zero counts as a revocation in D1, unless the row already has the time zero. -/
theorem standing_revokeRow {readAt : Millis} (nonzero : readAt ≠ 0)
    (unzeroed : sought = keyId →
      ∀ row, storage.rows.find sought = some row → row.revokedAt ≠ some 0)
    : Backend.d1.standing (storage.revokeRow keyId readAt) sought
      = if sought = keyId then (Backend.d1.standing storage sought).map Standing.revoke
        else Backend.d1.standing storage sought := by
  simp only [Backend.standing, Backend.look, Storage.revokeRow, Table.find_updateWhere]
  cases found : storage.rows.find sought with
  | none => simp
  | some row =>
      have named := Table.key_of_find found
      by_cases same : sought = keyId
      · subst same
        have shown := standing_row_revoked nonzero (unzeroed rfl row found)
        simpa [named] using shown
      · have other : row.keyId ≠ keyId := named ▸ same
        simp [other, same]

/-- The same over either store. -/
theorem standing_revoked {readAt : Millis} (nonzero : readAt ≠ 0) (apart : sought ≠ "revoked:" ++ keyId)
    (unzeroed : ∀ row, storage.rows.find sought = some row → row.revokedAt ≠ some 0)
    : backend.standing (backend.revoked storage keyId readAt) sought
      = if sought = keyId then (backend.standing storage sought).map Standing.revoke
        else backend.standing storage sought := by
  cases backend with
  | d1 => exact standing_revokeRow nonzero (fun _ => unzeroed)
  | kv keyPrefix => exact standing_revokedAt nonzero apart

-----------------------------------------------------------------------------------------
-- `put`
-----------------------------------------------------------------------------------------

/-- What a record shows when it is put for the first time. -/
def ApiKeyRecord.standing (record : ApiKeyRecord) : Option Standing :=
  record.written.map StoredApiKey.standing

/-- A row shows the same as the text of its record. -/
theorem standing_row {record : ApiKeyRecord} {row : ApiKeyRow} (bound : record.row = some row)
    : record.standing = some row.toRecord.standing := by
  simp only [ApiKeyRecord.row, Option.bind_eq_some_iff, Option.map_eq_some_iff] at bound
  obtain ⟨claims, written, createdAt, _, rfl⟩ := bound
  simp [ApiKeyRecord.standing, ApiKeyRecord.written, ApiKeyRecord.withClaims, written,
    ApiKeyRow.toRecord, StoredApiKey.standing, userOf]

/-- What a record's text shows next to any revocation, and that it changes no other id. -/
theorem standing_putText {record : StoredApiKey} (apart : keyId ≠ "revoked:" ++ sought)
    : (Backend.kv keyPrefix).standing
        (storage.putText (recordKey keyPrefix keyId) (.record record)) sought
      = if sought = keyId then
          (kvRecord (some (.record record)) (storage.text (revokedKey keyPrefix keyId))).map
            StoredApiKey.standing
        else (Backend.kv keyPrefix).standing storage sought := by
  have marker : revokedKey keyPrefix sought ≠ recordKey keyPrefix keyId := by
    rw [Ne, eq_comm, recordKey_eq_revokedKey]
    exact apart
  simp only [Backend.standing, Backend.look, text_putText, recordKey_inj, if_neg marker]
  by_cases same : sought = keyId
  · rw [if_pos same, if_pos same, same]
  · rw [if_neg same, if_neg same]

/-- What a row shows after a new one was written over it, and that no other row changes. -/
theorem standing_upsertRow {row : ApiKeyRow}
    : Backend.d1.standing (storage.upsertRow row) sought
      = if sought = row.keyId then
          some (((storage.rows.find row.keyId).map (fun stored => stored.replacedBy row)).getD
            row).toRecord.standing
        else Backend.d1.standing storage sought := by
  simp only [Backend.standing, Backend.look, Storage.upsertRow, Table.find_upsert]
  split <;> rfl

/-- No revocation of the id is stored, or no row of it. -/
def Backend.New (storage : Storage) (keyId : String) : Backend → Prop
  | .kv keyPrefix => storage.text (revokedKey keyPrefix keyId) = none
  | .d1 => storage.rows.find keyId = none

/-- A record that is put under a new id is shown as it is. -/
theorem standing_stored {record : ApiKeyRecord} {after : Storage}
    (stored : backend.stored storage record = some after)
    (apart : record.keyId ≠ "revoked:" ++ sought) (new : backend.New storage record.keyId)
    : backend.standing after sought
      = if sought = record.keyId then record.standing else backend.standing storage sought := by
  cases backend with
  | d1 =>
      obtain ⟨row, bound, rfl⟩ := Option.map_eq_some_iff.mp stored
      have named : row.keyId = record.keyId := by
        simp only [ApiKeyRecord.row, Option.bind_eq_some_iff, Option.map_eq_some_iff] at bound
        obtain ⟨claims, _, createdAt, _, rfl⟩ := bound
        rfl
      have absent : storage.rows.find row.keyId = none := by
        rw [named]
        exact new
      rw [standing_upsertRow, standing_row bound, absent, named]
      rfl
  | kv keyPrefix =>
      obtain ⟨text, written, rfl⟩ := Option.map_eq_some_iff.mp stored
      have unmarked : storage.text (revokedKey keyPrefix record.keyId) = none := new
      rw [standing_putText apart, unmarked, ApiKeyRecord.standing, written]
      rfl

end WorkersAuth.ApiKeys

import WorkersAuth.ApiKeys.Format
import WorkersAuth.Atomic.Program
import WorkersAuth.JsValues
import WorkersAuth.Encodings.Numbers
import WorkersAuth.Tables.Table

/-! The two API key stores.
KV keeps a record's text under one key and the time of its revocation under another, D1 one row
for both. One operation is one KV call or one statement, so it is one atomic step.
-/

namespace WorkersAuth.ApiKeys

open Atomic Encodings Tables

-----------------------------------------------------------------------------------------
-- Records
-----------------------------------------------------------------------------------------

/-- A record as the application hands it in. An optional number is `null` as well as undefined. -/
structure ApiKeyRecord where
  keyId : String
  env : String
  secretHash : String
  subjectId : String
  label : Option String
  claims : Option JsObject
  createdAt : JsNumber
  expiresAt : Option JsNumber
  lastUsedAt : Option JsNumber
  revokedAt : Option JsNumber

/-- A record as it is read back from JSON or from a row, which have no infinite numbers. The time
of a revocation is `Number` of a text of its own.
-/
structure StoredApiKey where
  keyId : String
  env : String
  secretHash : String
  subjectId : String
  label : Option String
  claims : Option JsonObject
  createdAt : Option ℚ
  expiresAt : Option ℚ
  lastUsedAt : Option ℚ
  revokedAt : Option JsNumber

/-- The claims as `JSON.stringify` writes them; nothing when it throws. -/
def writtenClaims : Option JsObject → Option (Option JsonObject)
  | none => some none
  | some claims => (JsValue.stringifyFields claims).map some

/-- The record with its numbers as JSON has them, and with claims that were written. -/
def ApiKeyRecord.withClaims (record : ApiKeyRecord) (claims : Option JsonObject) : StoredApiKey where
  keyId := record.keyId
  env := record.env
  secretHash := record.secretHash
  subjectId := record.subjectId
  label := record.label
  claims := claims
  createdAt := record.createdAt.written
  expiresAt := record.expiresAt.bind JsNumber.written
  lastUsedAt := record.lastUsedAt.bind JsNumber.written
  revokedAt := (record.revokedAt.bind JsNumber.written).map .finite

/-- `JSON.stringify(record)`; nothing when it throws. -/
def ApiKeyRecord.written (record : ApiKeyRecord) : Option StoredApiKey :=
  (writtenClaims record.claims).map record.withClaims

/-- A value of the KV namespace: a record, the time of a revocation, or what `touch` makes of such
a time when it takes it for a record.
-/
inductive KvText where
  | record (stored : StoredApiKey)
  | revokedAt (time : Millis)
  | lastUsedAt (time : Option ℚ)

/-- `Number(text)`. -/
def KvText.number : KvText → JsNumber
  | .revokedAt time => .finite time
  | .record _ | .lastUsedAt _ => .nan

structure KvPair where
  key : String
  text : KvText

/-- A row of `auth_api_keys`. -/
structure ApiKeyRow where
  keyId : String
  env : String
  secretHash : String
  subjectId : String
  label : Option String
  claims : Option JsonObject
  createdAt : ℚ
  expiresAt : Option ℚ
  lastUsedAt : Option ℚ
  revokedAt : Option ℚ

-----------------------------------------------------------------------------------------
-- Operations
-----------------------------------------------------------------------------------------

/-- What both stores keep, and the key ids that have been drawn. -/
structure Storage where
  drawn : List String
  kv : Table String KvPair (fun pair => pair.key)
  rows : Table String ApiKeyRow (fun row => row.keyId)

def Storage.empty : Storage := ⟨[], .empty, .empty⟩

/-- An id that was not drawn before, and that no stored key names. -/
def Storage.Unused (storage : Storage) (keyId : String) : Prop :=
  keyId ∉ storage.drawn ∧ ∀ pair ∈ storage.kv.rows, ¬keyId.toList <:+ pair.key.toList

def Storage.draw (storage : Storage) (keyId : String) : Storage :=
  { storage with drawn := keyId :: storage.drawn }

/-- The value of a KV key. -/
def Storage.text (storage : Storage) (key : String) : Option KvText :=
  (storage.kv.find key).map KvPair.text

/-- `recordFirst` is which of two KV reads issued together comes first. -/
inductive Op where
  | clock
  | randomKeyId
  | randomToken
  | recordFirst
  | getText (key : String)
  | putText (key : String) (text : KvText)
  | selectRow (keyId : String)
  | upsertRow (row : ApiKeyRow)
  | revokeRow (keyId : String) (revokedAt : Millis)
  | touchRow (keyId : String) (lastUsedAt : Option ℚ)

@[reducible] def Op.Reply : Op → Type
  | .clock => Millis
  | .randomKeyId => Bytes
  | .randomToken => String
  | .recordFirst => Bool
  | .getText _ => Option KvText
  | .putText .. => Unit
  | .selectRow _ => Option ApiKeyRow
  | .upsertRow _ => Unit
  | .revokeRow .. => Unit
  | .touchRow .. => Unit

abbrev Task := Program Op Op.Reply

/-- The columns that `ON CONFLICT(key_id) DO UPDATE` sets. -/
abbrev ApiKeyRow.replacedBy (stored row : ApiKeyRow) : ApiKeyRow :=
  { stored with
    secretHash := row.secretHash
    subjectId := row.subjectId
    label := row.label
    claims := row.claims
    expiresAt := row.expiresAt
    revokedAt := row.revokedAt }

def Storage.putText (storage : Storage) (key : String) (text : KvText) : Storage :=
  { storage with kv := storage.kv.upsert ⟨key, text⟩ (fun pair => { pair with text }) }

def Storage.upsertRow (storage : Storage) (row : ApiKeyRow) : Storage :=
  { storage with rows := storage.rows.upsert row (fun stored => stored.replacedBy row) }

/-- `UPDATE … SET revoked_at = ?2 WHERE key_id = ?1 AND revoked_at IS NULL`. -/
def Storage.revokeRow (storage : Storage) (keyId : String) (revokedAt : Millis) : Storage :=
  { storage with
    rows := storage.rows.updateWhere (fun row => row.keyId = keyId && row.revokedAt.isNone)
      (fun row => { row with revokedAt := some revokedAt }) }

def Storage.touchRow (storage : Storage) (keyId : String) (lastUsedAt : Option ℚ) : Storage :=
  { storage with
    rows := storage.rows.updateWhere (fun row => row.keyId = keyId)
      (fun row => { row with lastUsedAt }) }

/-- What an operation may reply and do, when the clock may show the times in `clock`. -/
def exec (platform : Platform) (clock : Millis → Prop) : Semantics Op Op.Reply Storage
  | .clock, before, readAt, after => clock readAt ∧ after = before
  | .randomKeyId, before, bytes, after =>
      bytes.length = 12 ∧ before.Unused (toHex bytes)
        ∧ after = before.draw (toHex bytes)
  | .randomToken, before, token, after => IsToken platform token ∧ after = before
  | .recordFirst, before, _, after => after = before
  | .getText key, before, text, after => text = before.text key ∧ after = before
  | .putText key text, before, _, after => after = before.putText key text
  | .selectRow keyId, before, row, after => row = before.rows.find keyId ∧ after = before
  | .upsertRow row, before, _, after => after = before.upsertRow row
  | .revokeRow keyId revokedAt, before, _, after => after = before.revokeRow keyId revokedAt
  | .touchRow keyId lastUsedAt, before, _, after => after = before.touchRow keyId lastUsedAt

/-- `now()`. -/
abbrev now : Task Millis := Program.perform Op.clock

abbrev recordFirst : Task Bool := Program.perform Op.recordFirst

abbrev getText (key : String) : Task (Option KvText) := Program.perform (Op.getText key)

abbrev putText (key : String) (text : KvText) : Task Unit := Program.perform (Op.putText key text)

abbrev selectRow (keyId : String) : Task (Option ApiKeyRow) := Program.perform (Op.selectRow keyId)

-----------------------------------------------------------------------------------------
-- The stores
-----------------------------------------------------------------------------------------

/-- `put` answers nothing when it throws. -/
structure ApiKeyStore where
  findById : String → Task (Option StoredApiKey)
  put : ApiKeyRecord → Task (Option Unit)
  revoke : String → Task Unit
  touch : String → JsNumber → Task Unit

section Kv

variable (keyPrefix : String)

def recordKey (keyId : String) : String := keyPrefix ++ keyId

def revokedKey (keyId : String) : String := keyPrefix ++ "revoked:" ++ keyId

/-- What `findById` makes of both texts. A text under the record's key that is no record has none
of its fields; the ids of records do not begin with `revoked:`.
-/
def kvRecord : Option KvText → Option KvText → Option StoredApiKey
  | some (.record stored), none => some stored
  | some (.record stored), some text => some { stored with revokedAt := some text.number }
  | _, _ => none

/-- What `touch` writes over a text: a spread number has no fields, and zero is no record. -/
def KvText.touched (lastUsedAt : Option ℚ) : KvText → Option KvText
  | .record stored => some (.record { stored with lastUsedAt })
  | .revokedAt time => if time = 0 then none else some (.lastUsedAt lastUsedAt)
  | .lastUsedAt _ => some (.lastUsedAt lastUsedAt)

def kvApiKeyStore : ApiKeyStore where
  findById keyId := do
    match ← recordFirst with
    | true =>
        let record ← getText (recordKey keyPrefix keyId)
        let revokedAt ← getText (revokedKey keyPrefix keyId)
        return kvRecord record revokedAt
    | false =>
        let revokedAt ← getText (revokedKey keyPrefix keyId)
        let record ← getText (recordKey keyPrefix keyId)
        return kvRecord record revokedAt
  put record := do
    match record.written with
    | none => return none
    | some stored =>
        putText (recordKey keyPrefix record.keyId) (.record stored)
        return some ()
  revoke keyId := do
    putText (revokedKey keyPrefix keyId) (.revokedAt (← now))
  touch keyId lastUsedAt := do
    match (← getText (recordKey keyPrefix keyId)).bind (KvText.touched lastUsedAt.written) with
    | none => return
    | some text => putText (recordKey keyPrefix keyId) text

end Kv

/-- The row `put` binds; nothing when `created_at` would be null. -/
def ApiKeyRecord.row (record : ApiKeyRecord) : Option ApiKeyRow :=
  (writtenClaims record.claims).bind (fun claims =>
    record.createdAt.written.map (fun createdAt => {
      keyId := record.keyId
      env := record.env
      secretHash := record.secretHash
      subjectId := record.subjectId
      label := record.label
      claims
      createdAt
      expiresAt := record.expiresAt.bind JsNumber.written
      lastUsedAt := record.lastUsedAt.bind JsNumber.written
      revokedAt := record.revokedAt.bind JsNumber.written
    }))

/-- The record `findById` makes of a row. -/
def ApiKeyRow.toRecord (row : ApiKeyRow) : StoredApiKey where
  keyId := row.keyId
  env := row.env
  secretHash := row.secretHash
  subjectId := row.subjectId
  label := row.label.filter (· ≠ "")
  claims := row.claims
  createdAt := row.createdAt
  expiresAt := row.expiresAt
  lastUsedAt := row.lastUsedAt
  revokedAt := row.revokedAt.map .finite

def d1ApiKeyStore : ApiKeyStore where
  findById keyId := do
    return (← selectRow keyId).map ApiKeyRow.toRecord
  put record := do
    match record.row with
    | none => return none
    | some row =>
        Program.perform (Op.upsertRow row)
        return some ()
  revoke keyId := do
    Program.perform (Op.revokeRow keyId (← now))
  touch keyId lastUsedAt := Program.perform (Op.touchRow keyId lastUsedAt.written)

end WorkersAuth.ApiKeys

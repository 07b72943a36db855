import WorkersAuth.Atomic.Schedule
import WorkersAuth.Crypto
import WorkersAuth.Tables.Table
import WorkersAuth.Types

/-! What the session stores keep, and the single operations on it.
D1 and Postgres keep one row per session, KV a record and an idle marker under two keys, and
the revocation list two tables on D1. One operation is one SQL statement, one D1 batch, one
KV call or one piece of synchronous code, so it is one atomic step.
-/

namespace WorkersAuth.Stores

open Atomic Tables

-----------------------------------------------------------------------------------------
-- Rows, records and markers
-----------------------------------------------------------------------------------------

structure SessionRow where
  sidHash : String
  userId : String
  subjectType : SubjectType
  createdAt : Millis
  lastSeenAt : Millis
  idleExpiresAt : Millis
  absoluteExpiresAt : Millis
  scope : Option SessionScope
  metadata : Option JsonObject

structure StoredSession where
  v : Nat
  userId : String
  subjectType : SubjectType
  createdAt : Millis
  absoluteExpiresAt : Millis
  idleTtlSec : ℚ
  scope : Option SessionScope
  metadata : Option JsonObject

/-- `e` is the idle expiry, `s` when the session was last seen. -/
structure SeenMarker where
  e : Millis
  s : Millis

structure Tombstone where
  sidHash : String
  expiresAt : Millis
  revokedAt : Millis

structure UserMarker where
  userId : String
  revokedBefore : Millis
  revokedAt : Millis

/-- One version of a KV key, and when it expires by KV's own time. -/
structure KvPair (α : Type) where
  key : String
  value : α
  expiresAt : Millis

/-- The keys of one KV prefix: the version each has now, and every version ever written. -/
structure KvSpace (α : Type) where
  current : Table String (KvPair α) (fun pair => pair.key)
  written : List (KvPair α)

namespace KvSpace

variable {α : Type}

def empty : KvSpace α := ⟨.empty, []⟩

/-- The value of a key at a moment of KV's time; an expired version is gone. -/
def read (space : KvSpace α) (key : String) (time : Millis) : Option α :=
  ((space.current.find key).filter (fun pair => time < pair.expiresAt)).map KvPair.value

def put (space : KvSpace α) (pair : KvPair α) : KvSpace α where
  current := (space.current.deleteWhere (fun stored => stored.key = pair.key)).upsert pair id
  written := pair :: space.written

def delete (space : KvSpace α) (key : String) : KvSpace α :=
  { space with current := space.current.deleteWhere (fun stored => stored.key = key) }

end KvSpace

/-- A row or key whose deletion has been issued. -/
inductive Deletion where
  | row (sidHash : String)
  | record (sidHash : String)
  | seen (sidHash : String)
  deriving DecidableEq

/-- An isolate's `Map` of the last idle-marker write per key. -/
abbrev TouchGuard := List (String × Millis)

/-- Everything the stores share. `now` is the last clock reading, `kvNow` KV's own time, `drawn`
the hashes of all session ids drawn, `deferred` the deletions handed to `waitUntil`.
-/
structure Storage where
  now : Millis
  kvNow : Millis
  drawn : List String
  rows : Table String SessionRow (fun row => row.sidHash)
  records : KvSpace StoredSession
  seen : KvSpace SeenMarker
  guards : Nat → TouchGuard
  deferred : List Deletion
  tombstones : Table String Tombstone (fun tombstone => tombstone.sidHash)
  userMarkers : Table String UserMarker (fun marker => marker.userId)

/-- The storage as the migrations create it, at a first moment. -/
def Storage.empty (now : Millis) : Storage where
  now
  kvNow := now
  drawn := []
  rows := .empty
  records := .empty
  seen := .empty
  guards _ := []
  deferred := []
  tombstones := .empty
  userMarkers := .empty

/-- Performing a deletion. -/
def Storage.delete (storage : Storage) : Deletion → Storage
  | .row sidHash =>
      { storage with rows := storage.rows.deleteWhere (fun row => row.sidHash = sidHash) }
  | .record sidHash => { storage with records := storage.records.delete sidHash }
  | .seen sidHash => { storage with seen := storage.seen.delete sidHash }

/-- `TOUCH_GUARD_MAX`. -/
def touchGuardMax : Nat := 4096

/-- Whether a marker may be written now; if so, the map as it remembers the write. -/
def TouchGuard.allows (touchGuard : TouchGuard) (key : String) (readAt throttleMs : Millis)
    : Bool × TouchGuard :=
  let lastWrite := (touchGuard.find? (fun entry => entry.1 = key)).map Prod.snd
  if lastWrite.any (fun lastWrite => readAt - lastWrite < throttleMs) then
    (false, touchGuard)
  else
    let kept := if touchGuardMax ≤ touchGuard.length then [] else touchGuard
    (true, (key, readAt) :: kept.filter (fun entry => entry.1 ≠ key))

/-- The `SET` list of `touch`, on a row that is neither idle nor absolutely expired. -/
abbrev SessionRow.touched (row : SessionRow) (readAt idleExpiresAt : Millis) : SessionRow :=
  { row with lastSeenAt := readAt, idleExpiresAt := min idleExpiresAt row.absoluteExpiresAt }

-----------------------------------------------------------------------------------------
-- Operations and their replies
-----------------------------------------------------------------------------------------

/-- The operations whose outcome the storage alone decides. -/
inductive Statement where
  | insertRow (row : SessionRow)
  | selectRow (sidHash : String)
  | touchRow (sidHash : String) (readAt idleExpiresAt : Millis)
  | delete (deletion : Deletion)
  | deferDelete (deletion : Deletion)
  | land (deletion : Deletion)
  | deleteUserRows (userId : String)
  | deleteExpiredRows (cutoff : Millis)
  | deleteAbsoluteRows (cutoff : Millis)
  | deleteIdleRows (cutoff : Millis)
  | admitTouch (isolate : Nat) (sidHash : String) (readAt throttleMs : Millis)
  | selectRevoked (sidHash userId : String) (readAt createdAt : Millis)
  | upsertTombstone (sidHash : String) (expiresAt revokedAt : Millis)
  | upsertUserMarker (userId : String) (revokedBefore revokedAt : Millis)
  | deleteRevocations (cutoff markerCutoff : Millis)

@[reducible] def Statement.Reply : Statement → Type
  | .insertRow .. => Unit
  | .selectRow .. => Option SessionRow
  | .touchRow .. => Unit
  | .delete .. => Unit
  | .deferDelete .. => Unit
  | .land .. => Unit
  | .deleteUserRows .. => Unit
  | .deleteExpiredRows .. => Nat
  | .deleteAbsoluteRows .. => Nat
  | .deleteIdleRows .. => Nat
  | .admitTouch .. => Bool
  | .selectRevoked .. => Bool
  | .upsertTombstone .. => Unit
  | .upsertUserMarker .. => Unit
  | .deleteRevocations .. => Nat

/-- `DELETE ... WHERE`, and how many rows it removed. -/
def Storage.deleteRows (storage : Storage) (selects : SessionRow → Bool) : Nat × Storage :=
  (storage.rows.countWhere selects, { storage with rows := storage.rows.deleteWhere selects })

/-- What an operation replies and the storage it leaves; nothing when it throws. A deferred
deletion lands only after it has been issued.
-/
def Statement.run : (statement : Statement) → Storage → Option (statement.Reply × Storage)
  | .insertRow row, storage =>
      (storage.rows.insert row).map (fun rows => ((), { storage with rows }))
  | .selectRow sidHash, storage => some (storage.rows.find sidHash, storage)
  | .touchRow sidHash readAt idleExpiresAt, storage =>
      let rows := storage.rows.updateWhere
        (fun row => row.sidHash = sidHash && readAt < row.idleExpiresAt
          && readAt < row.absoluteExpiresAt)
        (fun row => row.touched readAt idleExpiresAt)
      some ((), { storage with rows })
  | .delete deletion, storage => some ((), storage.delete deletion)
  | .deferDelete deletion, storage =>
      some ((), { storage with deferred := deletion :: storage.deferred })
  | .land deletion, storage =>
      if deletion ∈ storage.deferred then
        some ((), { storage.delete deletion with deferred := storage.deferred.erase deletion })
      else none
  | .deleteUserRows userId, storage =>
      some ((), (storage.deleteRows (fun row => row.userId = userId)).2)
  | .deleteExpiredRows cutoff, storage =>
      let (byAbsolute, first) := storage.deleteRows (fun row => row.absoluteExpiresAt ≤ cutoff)
      let (byIdle, second) := first.deleteRows (fun row => row.idleExpiresAt ≤ cutoff)
      some (byAbsolute + byIdle, second)
  | .deleteAbsoluteRows cutoff, storage =>
      some (storage.deleteRows (fun row => row.absoluteExpiresAt ≤ cutoff))
  | .deleteIdleRows cutoff, storage =>
      some (storage.deleteRows (fun row => row.idleExpiresAt ≤ cutoff))
  | .admitTouch isolate sidHash readAt throttleMs, storage =>
      let (admitted, touchGuard) := (storage.guards isolate).allows sidHash readAt throttleMs
      some (admitted, {
        storage with
        guards := fun other => if other = isolate then touchGuard else storage.guards other
      })
  | .selectRevoked sidHash userId readAt createdAt, storage =>
      let tombstoned := (storage.tombstones.find sidHash).any (fun row => readAt < row.expiresAt)
      let marked := (storage.userMarkers.find userId).any (fun row => createdAt < row.revokedBefore)
      some (tombstoned || marked, storage)
  | .upsertTombstone sidHash expiresAt revokedAt, storage =>
      let tombstones := storage.tombstones.upsert { sidHash, expiresAt, revokedAt }
        (fun stored => { stored with expiresAt := max stored.expiresAt expiresAt })
      some ((), { storage with tombstones })
  | .upsertUserMarker userId revokedBefore revokedAt, storage =>
      let userMarkers := storage.userMarkers.upsert { userId, revokedBefore, revokedAt }
        (fun stored =>
          { stored with revokedBefore := max stored.revokedBefore revokedBefore, revokedAt })
      some ((), { storage with userMarkers })
  | .deleteRevocations cutoff markerCutoff, storage =>
      let expired (tombstone : Tombstone) : Bool := tombstone.expiresAt ≤ cutoff
      let outlived (marker : UserMarker) : Bool := marker.revokedBefore ≤ markerCutoff
      some (storage.tombstones.countWhere expired + storage.userMarkers.countWhere outlived, {
        storage with
        tombstones := storage.tombstones.deleteWhere expired
        userMarkers := storage.userMarkers.deleteWhere outlived
      })

/-- The KV calls other than deletions; `expirationTtl` is in seconds. -/
inductive KvCall where
  | getRecord (sidHash : String)
  | getSeen (sidHash : String)
  | putRecord (sidHash : String) (record : StoredSession) (expirationTtl : ℤ)
  | putSeen (sidHash : String) (marker : SeenMarker) (expirationTtl : ℤ)

@[reducible] def KvCall.Reply : KvCall → Type
  | .getRecord .. => Option StoredSession
  | .getSeen .. => Option SeenMarker
  | .putRecord .. => Unit
  | .putSeen .. => Unit

/-- What a KV call replies at a moment of KV's time when KV is strongly consistent. -/
def KvCall.run (time : Millis) : (op : KvCall) → Storage → op.Reply × Storage
  | .getRecord sidHash, storage => (storage.records.read sidHash time, { storage with kvNow := time })
  | .getSeen sidHash, storage => (storage.seen.read sidHash time, { storage with kvNow := time })
  | .putRecord sidHash record expirationTtl, storage =>
      let pair := { key := sidHash, value := record, expiresAt := time + expirationTtl * sec }
      ((), { storage with records := storage.records.put pair, kvNow := time })
  | .putSeen sidHash marker expirationTtl, storage =>
      let pair := { key := sidHash, value := marker, expiresAt := time + expirationTtl * sec }
      ((), { storage with seen := storage.seen.put pair, kvNow := time })

/-- One step of a store's code. `called` marks the moment a call is made, `listClock` is the clock of
the revocation list, and `recordFirst` tells in which order two KV calls that are issued
together are served.
-/
inductive Op where
  | called
  | clock
  | listClock
  | randomToken
  | recordFirst
  | statement (statement : Statement)
  | kv (call : KvCall)

@[reducible] def Op.Reply : Op → Type
  | .called => Millis
  | .clock => Millis
  | .listClock => Millis
  | .randomToken => String
  | .recordFirst => Bool
  | .statement query => query.Reply
  | .kv call => call.Reply

/-- The code of a store, or a part of it. -/
abbrev Task := Program Op Op.Reply

-----------------------------------------------------------------------------------------
-- What the operations do
-----------------------------------------------------------------------------------------

inductive Consistency where
  | strong
  | eventual
  deriving DecidableEq

/-- The answers a KV read may give: the current value, or under eventual consistency any version
ever written, or nothing.
-/
def KvSpace.MayRead {α : Type} (space : KvSpace α) (key : String) (time : Millis)
    : Consistency → Option α → Prop
  | .strong, answer => answer = space.read key time
  | .eventual, answer =>
      answer = none ∨ ∃ pair ∈ space.written, pair.key = key ∧ answer = some pair.value

/-- What the surroundings promise: which reading of the clock may follow which, and what KV
reads may answer. KV's own time moves forward and is otherwise free.
-/
structure Guarantees where
  clock : Millis → Millis → Prop
  consistency : Consistency

/-- Clocks of different calls may disagree. -/
def anyClock (_ _ : Millis) : Prop := True

instance : DecidableRel anyClock := fun _ _ => .isTrue trivial

/-- No call has used an id with this hash: none was drawn, and no marker was written under it. -/
abbrev Storage.Unused (storage : Storage) (sidHash : String) : Prop :=
  sidHash ∉ storage.drawn ∧ sidHash ∉ storage.seen.written.map KvPair.key

/-- The semantics of all operations. A session id is never drawn twice, nor one that somebody has
guessed before.
-/
def exec (platform : Platform) (guarantees : Guarantees) : Semantics Op Op.Reply Storage
  | .called, before, time, after =>
      guarantees.clock before.now time ∧ after = { before with now := time }
  | .clock, before, time, after =>
      guarantees.clock before.now time ∧ after = { before with now := time }
  | .listClock, before, time, after =>
      guarantees.clock before.now time ∧ after = { before with now := time }
  | .randomToken, before, sid, after =>
      before.Unused (sha256Hex platform sid)
      ∧ after = { before with drawn := sha256Hex platform sid :: before.drawn }
  | .recordFirst, before, _, after => after = before
  | .statement query, before, reply, after => query.run before = some (reply, after)
  | .kv call, before, reply, after =>
      ∃ time, before.kvNow ≤ time ∧ after = (call.run time before).2
        ∧ match call, reply with
          | .getRecord sidHash, found =>
              before.records.MayRead sidHash time guarantees.consistency found
          | .getSeen sidHash, found => before.seen.MayRead sidHash time guarantees.consistency found
          | .putRecord .., _ => True
          | .putSeen .., _ => True

-----------------------------------------------------------------------------------------
-- The operations under short names
-----------------------------------------------------------------------------------------

/-- The start of a call. -/
abbrev called : Task Millis := Program.perform Op.called

/-- `now()` of a store. -/
abbrev now : Task Millis := Program.perform Op.clock

/-- `now()` of the revocation list. -/
abbrev listNow : Task Millis := Program.perform Op.listClock

abbrev randomToken : Task String := Program.perform Op.randomToken

abbrev recordFirst : Task Bool := Program.perform Op.recordFirst

abbrev query (statement : Statement) : Task statement.Reply := Program.perform (Op.statement statement)

abbrev kv (call : KvCall) : Task call.Reply := Program.perform (Op.kv call)

end WorkersAuth.Stores

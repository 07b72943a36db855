import Mathlib.Data.Rat.Floor
import WorkersAuth.Stores.Storage

/-! `revocationList`, `d1SessionStore`, `pgSessionStore` and `kvSessionStore`.
Each function is the source's, as a program over single operations. The two SQL stores run
the same statements, so their functions are one definition with each store's own options.
-/

namespace WorkersAuth.Stores

open Atomic

variable (platform : Platform)

-----------------------------------------------------------------------------------------
-- revocationList
-----------------------------------------------------------------------------------------

/-- A `RevocationList`, by the option its `cleanup` depends on. -/
structure RevocationList where
  maxSessionLifetimeSec : ℚ := 60 * 60 * 24 * 90

namespace revocationList

def isRevoked (sidHash userId : String) (createdAt : Millis) : Task Bool := do
  query (.selectRevoked sidHash userId (← listNow) createdAt)

def revoke (sidHash : String) (expiresAt : Millis) : Task Unit := do
  query (.upsertTombstone sidHash expiresAt (← listNow))

def revokeUser (userId : String) (revokedBefore : Millis) : Task Unit := do
  query (.upsertUserMarker userId revokedBefore (← listNow))

/-- `const cutoff = at ?? now()` and the two deletions in one batch. -/
def cleanup (list : RevocationList) (cutoff : Option Millis) : Task Nat := do
  let cutoff ← match cutoff with
    | some cutoff => pure cutoff
    | none => listNow
  query (.deleteRevocations cutoff (cutoff - list.maxSessionLifetimeSec * sec))

end revocationList

/-- `revocation && await revocation.isRevoked(...)`. -/
def checkRevoked (revocation : Option RevocationList) (sidHash userId : String) (createdAt : Millis)
    : Task Bool :=
  match revocation with
  | none => return false
  | some _ => revocationList.isRevoked sidHash userId createdAt

-----------------------------------------------------------------------------------------
-- What the stores share
-----------------------------------------------------------------------------------------

/-- Waiting for a deletion, or handing it to `waitUntil`. A context that refuses the promise makes
`get` wait for it, which is one of the moments at which a deferred deletion may land.
-/
def settle (executionCtx : Bool) (deletion : Deletion) : Task Unit :=
  match executionCtx with
  | false => query (.delete deletion)
  | true => query (.deferDelete deletion)

/-- `at ?? now()`. -/
def cutoffOr (cutoff : Option Millis) : Task Millis :=
  match cutoff with
  | some cutoff => return cutoff
  | none => now

/-- The error text for lifetimes that are not positive. -/
def assertTtls (input : NewSession) : Option String :=
  if input.idleTtlSec ≤ 0 then
    some "session: idleTtlSec must be a positive number of seconds"
  else if input.absoluteTtlSec ≤ 0 then
    some "session: absoluteTtlSec must be a positive number of seconds"
  else none

-----------------------------------------------------------------------------------------
-- The SQL stores
-----------------------------------------------------------------------------------------

/-- The row `create` inserts. -/
def newRow (sidHash : String) (input : NewSession) (readAt : Millis) : SessionRow where
  sidHash := sidHash
  userId := input.userId
  subjectType := input.subjectType
  createdAt := readAt
  lastSeenAt := readAt
  idleExpiresAt := min (readAt + input.idleTtlSec * sec) (readAt + input.absoluteTtlSec * sec)
  absoluteExpiresAt := readAt + input.absoluteTtlSec * sec
  scope := input.scope
  metadata := input.metadata

def rowToSession (row : SessionRow) (sid : String) : Session where
  sid := sid
  userId := row.userId
  subjectType := row.subjectType
  createdAt := row.createdAt
  lastSeenAt := row.lastSeenAt
  idleExpiresAt := row.idleExpiresAt
  absoluteExpiresAt := row.absoluteExpiresAt
  scope := row.scope
  metadata := row.metadata

/-- `at >= idle_expires_at || at >= absolute_expires_at`. -/
def SessionRow.expired (row : SessionRow) (readAt : Millis) : Bool :=
  row.idleExpiresAt ≤ readAt || row.absoluteExpiresAt ≤ readAt

namespace sqlSessionStore

def create (input : NewSession) : Task (Except String Session) := do
  match assertTtls input with
  | some error => return .error error
  | none =>
      let readAt ← now
      let sid ← randomToken
      let row := newRow (sha256Hex platform sid) input readAt
      query (.insertRow row)
      return .ok (rowToSession row sid)

def get (revocation : Option RevocationList) (executionCtx : Bool) (sid : String)
    : Task (Option Session) := do
  let sidHash := sha256Hex platform sid
  match ← query (.selectRow sidHash) with
  | none => return none
  | some row =>
      match ← checkRevoked revocation sidHash row.userId row.createdAt with
      | true => return none
      | false =>
          let readAt ← now
          match row.expired readAt with
          | true =>
              settle executionCtx (.row sidHash)
              return none
          | false => return some (rowToSession row sid)

def touch (sid : String) (idleExpiresAt : Millis) : Task Unit := do
  query (.touchRow (sha256Hex platform sid) (← now) idleExpiresAt)

/-- The tombstone for another store that shares the list. -/
def tombstoneRow (revocation : Option RevocationList) (sidHash : String) : Task Unit := do
  match revocation with
  | none => return
  | some _ =>
      match ← query (.selectRow sidHash) with
      | none => return
      | some row => revocationList.revoke sidHash row.absoluteExpiresAt

def revoke (revocation : Option RevocationList) (sid : String) : Task Unit := do
  let sidHash := sha256Hex platform sid
  tombstoneRow revocation sidHash
  query (.delete (.row sidHash))

/-- `if (revocation) await revocation.revokeUser(userId, now() + 1)`. -/
def markUser (revocation : Option RevocationList) (userId : String) : Task Unit := do
  match revocation with
  | none => return
  | some _ => revocationList.revokeUser userId ((← now) + 1)

def revokeAllForUser (revocation : Option RevocationList) (userId : String) : Task Unit := do
  markUser revocation userId
  query (.deleteUserRows userId)

end sqlSessionStore

structure D1SessionStoreOptions where
  revocation : Option RevocationList := none
  executionCtx : Bool := false

namespace d1SessionStore

variable (options : D1SessionStoreOptions)

def create : NewSession → Task (Except String Session) := sqlSessionStore.create platform

def get : String → Task (Option Session) :=
  sqlSessionStore.get platform options.revocation options.executionCtx

def touch : String → Millis → Task Unit := sqlSessionStore.touch platform

def revoke : String → Task Unit := sqlSessionStore.revoke platform options.revocation

def revokeAllForUser : String → Task Unit := sqlSessionStore.revokeAllForUser options.revocation

/-- Both deletions in one batch. -/
def cleanup (cutoff : Option Millis) : Task Nat := do
  query (.deleteExpiredRows (← cutoffOr cutoff))

end d1SessionStore

structure PgSessionStoreOptions where
  executionCtx : Bool := false

namespace pgSessionStore

variable (options : PgSessionStoreOptions)

def create : NewSession → Task (Except String Session) := sqlSessionStore.create platform

def get : String → Task (Option Session) := sqlSessionStore.get platform none options.executionCtx

def touch : String → Millis → Task Unit := sqlSessionStore.touch platform

def revoke : String → Task Unit := sqlSessionStore.revoke platform none

def revokeAllForUser : String → Task Unit := sqlSessionStore.revokeAllForUser none

/-- Two queries, one after the other. -/
def cleanup (cutoff : Option Millis) : Task Nat := do
  let cutoff ← cutoffOr cutoff
  let byAbsolute ← query (.deleteAbsoluteRows cutoff)
  let byIdle ← query (.deleteIdleRows cutoff)
  return byAbsolute + byIdle

end pgSessionStore

-----------------------------------------------------------------------------------------
-- kvSessionStore
-----------------------------------------------------------------------------------------

/-- The options, and what construction has checked of them. -/
structure KvSessionStoreOptions where
  revocation : Option RevocationList := none
  allowUnrevocableSessions : Bool := false
  tombstoneFallbackSec : ℚ := 60 * 60 * 24 * 30
  touchThrottleSec : ℚ := 10
  executionCtx : Bool := false
  constructed : revocation.isSome ∨ allowUnrevocableSessions = true

def recordVersion : Nat := 2

def kvMinTtlSec : ℤ := 60

def ttlSecondsUntil (expiresAt readAt : Millis) : ℤ := max kvMinTtlSec ⌈(expiresAt - readAt) / sec⌉

/-- The record `create` writes. -/
def newRecord (input : NewSession) (readAt : Millis) : StoredSession where
  v := recordVersion
  userId := input.userId
  subjectType := input.subjectType
  createdAt := readAt
  absoluteExpiresAt := readAt + input.absoluteTtlSec * sec
  idleTtlSec := input.idleTtlSec
  scope := input.scope
  metadata := input.metadata

namespace StoredSession

variable (record : StoredSession)

/-- The end of the first idle window. -/
def derivedIdleExpiry : Millis := record.createdAt + record.idleTtlSec * sec

/-- `Math.min(seen?.e ?? derivedIdleExpiry, record.absoluteExpiresAt)`. -/
def idleExpiresAt (seen : Option SeenMarker) : Millis :=
  min ((seen.map SeenMarker.e).getD record.derivedIdleExpiry) record.absoluteExpiresAt

/-- Both checks of `get`, `at >= record.absoluteExpiresAt` and `at >= idleExpiresAt`. -/
def expired (seen : Option SeenMarker) (readAt : Millis) : Bool :=
  record.absoluteExpiresAt ≤ readAt || record.idleExpiresAt seen ≤ readAt

/-- The session a record and a marker stand for. -/
def toSession (seen : Option SeenMarker) (sid : String) : Session where
  sid := sid
  userId := record.userId
  subjectType := record.subjectType
  createdAt := record.createdAt
  lastSeenAt := (seen.map SeenMarker.s).getD record.createdAt
  idleExpiresAt := record.idleExpiresAt seen
  absoluteExpiresAt := record.absoluteExpiresAt
  scope := record.scope
  metadata := record.metadata

end StoredSession

namespace kvSessionStore

variable (options : KvSessionStoreOptions)

/-- Both deletions, issued together. -/
def forget (executionCtx : Bool) (sidHash : String) : Task Unit := do
  match ← recordFirst with
  | true =>
      settle executionCtx (.record sidHash)
      settle executionCtx (.seen sidHash)
  | false =>
      settle executionCtx (.seen sidHash)
      settle executionCtx (.record sidHash)

def create (input : NewSession) : Task (Except String Session) := do
  match assertTtls input with
  | some error => return .error error
  | none =>
      let readAt ← now
      let sid ← randomToken
      let record := newRecord input readAt
      kv (.putRecord (sha256Hex platform sid) record (ttlSecondsUntil record.absoluteExpiresAt readAt))
      return .ok (record.toSession none sid)

/-- Both reads, issued together. -/
def readBoth (sidHash : String) : Task (Option StoredSession × Option SeenMarker) := do
  match ← recordFirst with
  | true =>
      let record ← kv (.getRecord sidHash)
      let seen ← kv (.getSeen sidHash)
      return (record, seen)
  | false =>
      let seen ← kv (.getSeen sidHash)
      let record ← kv (.getRecord sidHash)
      return (record, seen)

/-- What `get` makes of the record and the marker it has read. -/
def judge (sid : String) (record : StoredSession) (seen : Option SeenMarker)
    : Task (Option Session) := do
  let sidHash := sha256Hex platform sid
  let readAt ← now
  match record.expired seen readAt with
  | true =>
      forget options.executionCtx sidHash
      return none
  | false =>
      match ← checkRevoked options.revocation sidHash record.userId record.createdAt with
      | true => return none
      | false => return some (record.toSession seen sid)

def get (sid : String) : Task (Option Session) := do
  match ← readBoth (sha256Hex platform sid) with
  | (none, _) => return none
  | (some record, seen) =>
      if record.v ≠ recordVersion then return none
      else judge platform options sid record seen

def touch (isolate : Nat) (sid : String) (idleExpiresAt : Millis) : Task Unit := do
  let readAt ← now
  if idleExpiresAt ≤ readAt then return
  else
    let sidHash := sha256Hex platform sid
    match ← query (.admitTouch isolate sidHash readAt (options.touchThrottleSec * sec)) with
    | false => return
    | true =>
        kv (.putSeen sidHash { e := idleExpiresAt, s := readAt }
          (ttlSecondsUntil idleExpiresAt readAt))

/-- `record?.absoluteExpiresAt ?? now() + tombstoneFallbackMs`. -/
def tombstoneExpiry (record : Option StoredSession) : Task Millis := do
  match record with
  | some record => return record.absoluteExpiresAt
  | none => return (← now) + options.tombstoneFallbackSec * sec

/-- The tombstone, written before the record is deleted. -/
def tombstone (sidHash : String) (record : Option StoredSession) : Task Unit := do
  match options.revocation with
  | none => return
  | some _ => revocationList.revoke sidHash (← tombstoneExpiry options record)

def revoke (sid : String) : Task Unit := do
  let sidHash := sha256Hex platform sid
  let record ← kv (.getRecord sidHash)
  tombstone options sidHash record
  forget false sidHash

def revokeAllForUser (userId : String) : Task Unit := do
  match options.revocation with
  | none => return
  | some _ => revocationList.revokeUser userId ((← now) + 1)

end kvSessionStore

-----------------------------------------------------------------------------------------
-- Any of the three
-----------------------------------------------------------------------------------------

/-- A store object and the options it was constructed with. -/
inductive SessionStore where
  | d1 (options : D1SessionStoreOptions)
  | pg (options : PgSessionStoreOptions)
  | kv (options : KvSessionStoreOptions)

namespace SessionStore

def revocation : SessionStore → Option RevocationList
  | .d1 options => options.revocation
  | .pg _ => none
  | .kv options => options.revocation

def executionCtx : SessionStore → Bool
  | .d1 options => options.executionCtx
  | .pg options => options.executionCtx
  | .kv options => options.executionCtx

def create : SessionStore → NewSession → Task (Except String Session)
  | .d1 _ => d1SessionStore.create platform
  | .pg _ => pgSessionStore.create platform
  | .kv _ => kvSessionStore.create platform

def get : SessionStore → String → Task (Option Session)
  | .d1 options => d1SessionStore.get platform options
  | .pg options => pgSessionStore.get platform options
  | .kv options => kvSessionStore.get platform options

/-- `isolate` is where the call runs; only the KV store keeps anything there. -/
def touch : SessionStore → Nat → String → Millis → Task Unit
  | .d1 _, _ => d1SessionStore.touch platform
  | .pg _, _ => pgSessionStore.touch platform
  | .kv options, isolate => kvSessionStore.touch platform options isolate

def revoke : SessionStore → String → Task Unit
  | .d1 options => d1SessionStore.revoke platform options
  | .pg _ => pgSessionStore.revoke platform
  | .kv options => kvSessionStore.revoke platform options

def revokeAllForUser : SessionStore → String → Task Unit
  | .d1 options => d1SessionStore.revokeAllForUser options
  | .pg _ => pgSessionStore.revokeAllForUser
  | .kv options => kvSessionStore.revokeAllForUser options

/-- The KV store has no `cleanup`: KV's `expirationTtl` removes what has expired. -/
def cleanup : SessionStore → Option Millis → Task Nat
  | .d1 _, cutoff => d1SessionStore.cleanup cutoff
  | .pg _, cutoff => pgSessionStore.cleanup cutoff
  | .kv _, _ => return 0

end SessionStore

/-- A call of a store's interface, or the landing of a deletion that was deferred. -/
inductive Request where
  | create (input : NewSession)
  | get (sid : String)
  | touch (isolate : Nat) (sid : String) (idleExpiresAt : Millis)
  | revoke (sid : String)
  | revokeAllForUser (userId : String)
  | cleanup (cutoff : Option Millis)
  | land (deletion : Deletion)

inductive Answer where
  | created (result : Except String Session)
  | found (session : Option Session)
  | done
  | removed (rows : Nat)

/-- The program of a call. -/
def SessionStore.answer (store : SessionStore) : Request → Task Answer
  | .create input => return .created (← store.create platform input)
  | .get sid => return .found (← store.get platform sid)
  | .touch isolate sid idleExpiresAt => do
      store.touch platform isolate sid idleExpiresAt
      return .done
  | .revoke sid => do
      store.revoke platform sid
      return .done
  | .revokeAllForUser userId => do
      store.revokeAllForUser userId
      return .done
  | .cleanup cutoff => return .removed (← store.cleanup cutoff)
  | .land deletion => do
      query (.land deletion)
      return .done

/-- A call of a store, which notes the moment it is made. -/
def SessionStore.call (store : SessionStore) (request : Request) : Task Answer := do
  let _ ← called
  store.answer platform request

/-- A store that any number of calls use at once. -/
def sessionService (guarantees : Guarantees) (store : SessionStore)
    : Service Op Op.Reply Storage Request Answer where
  program := store.call platform
  exec := exec platform guarantees

end WorkersAuth.Stores

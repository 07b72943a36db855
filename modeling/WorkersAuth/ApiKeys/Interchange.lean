import WorkersAuth.ApiKeys.Deployment

/-! The same calls over both stores.
Each call is made to either store at the same time. What both show of a key id stays the same, unless
a call is one of those that the stores treat differently.
-/

namespace WorkersAuth.ApiKeys

open Atomic Encodings Tables

-----------------------------------------------------------------------------------------
-- Calls of both stores
-----------------------------------------------------------------------------------------

inductive StoreCall where
  | put (record : ApiKeyRecord)
  | findById (keyId : String)
  | revoke (keyId : String)
  | touch (keyId : String) (lastUsedAt : JsNumber)

/-- A call of a store, whatever it answers. -/
def ApiKeyStore.perform (store : ApiKeyStore) : StoreCall → Task Unit
  | .put record => do
      let _ ← store.put record
      return ()
  | .findById keyId => do
      let _ ← store.findById keyId
      return ()
  | .revoke keyId => store.revoke keyId
  | .touch keyId lastUsedAt => store.touch keyId lastUsedAt

/-- The two stores, each with what it keeps. -/
structure Both where
  kv : Storage
  d1 : Storage

/-- A call and the time it is made at. -/
structure TimedCall where
  call : StoreCall
  readAt : Millis

/-- The same call is made to both stores, at the same positive time. -/
structure BothServe (platform : Platform) (keyPrefix : String) (before : Both) (event : TimedCall)
    (after : Both)
    : Prop where
  positive : 0 < event.readAt
  kv : ((kvApiKeyStore keyPrefix).perform event.call).Evaluates (exec platform (· = event.readAt))
    before.kv () after.kv
  d1 : (d1ApiKeyStore.perform event.call).Evaluates (exec platform (· = event.readAt)) before.d1 ()
    after.d1

/-- `verify` answers the same over both stores, whatever is presented and at every time. -/
def Both.Agree (platform : Platform) (keyPrefix : String) (both : Both) : Prop :=
  ∀ options req readAt user,
    (∃ after, (verify platform (kvApiKeyStore keyPrefix) options req).Evaluates
        (exec platform (· = readAt)) both.kv user after)
    ↔ ∃ after, (verify platform d1ApiKeyStore options req).Evaluates (exec platform (· = readAt))
        both.d1 user after

/-- A put that both stores treat alike: its record has a time of creation, the environment of the
row that it replaces, and a revocation of its own when the id has been revoked.
-/
structure AlikePut (keyPrefix : String) (before : Both) (record : ApiKeyRecord) : Prop where
  createdAt : record.createdAt.written.isSome
  env : ∀ row, before.d1.rows.find record.keyId = some row → row.env = record.env
  revoked : (before.kv.text (revokedKey keyPrefix record.keyId)).isSome →
    (record.revokedAt.bind JsNumber.written).any (· ≠ 0)

/-- A call that both stores treat alike, as far as ids that a key can carry go: no record is put or
touched under the KV key of a revocation, a put is alike, and no row was revoked at the time zero.
-/
def Alike (keyPrefix : String) (before : Both) : StoreCall → Prop
  | .put record =>
      (writtenClaims record.claims).isSome →
        (∀ keyId, isKeyId keyId.toList → record.keyId ≠ "revoked:" ++ keyId)
        ∧ (isKeyId record.keyId.toList → AlikePut keyPrefix before record)
  | .findById _ => True
  | .revoke keyId =>
      isKeyId keyId.toList →
        ∀ row, before.d1.rows.find keyId = some row → row.revokedAt ≠ some 0
  | .touch keyId _ =>
      ∀ revoked, isKeyId revoked.toList → keyId = "revoked:" ++ revoked →
        before.kv.text (revokedKey keyPrefix revoked) = none

/-- What a call leaves in a store. -/
def Backend.performed (storage : Storage) (event : TimedCall) (backend : Backend) : Storage :=
  match event.call with
  | .put record => (backend.stored storage record).getD storage
  | .findById _ => storage
  | .revoke keyId => backend.revoked storage keyId event.readAt
  | .touch keyId lastUsedAt => backend.touched storage keyId lastUsedAt

variable {platform : Platform} {keyPrefix : String} {both before after : Both}

/-- A call ends in one storage only, by cases on the call. -/
theorem evaluates_perform {backend : Backend} {event : TimedCall} {before after : Storage}
    : (backend.store.perform event.call).Evaluates (exec platform (· = event.readAt)) before () after
      ↔ after = backend.performed before event := by
  obtain ⟨call, readAt⟩ := event
  cases call with
  | put record => simp [ApiKeyStore.perform, Backend.performed, Program.evaluates_bind, evaluates_put]
  | findById keyId =>
      simp [ApiKeyStore.perform, Backend.performed, Program.evaluates_bind, evaluates_findById]
  | revoke keyId => simp [ApiKeyStore.perform, Backend.performed, evaluates_revoke]
  | touch keyId lastUsedAt => simp [ApiKeyStore.perform, Backend.performed, evaluates_touch]

/-- A call over both stores leaves in each what it leaves there alone. -/
theorem bothServe_iff {event : TimedCall}
    : BothServe platform keyPrefix before event after
      ↔ 0 < event.readAt
        ∧ after = ⟨(Backend.kv keyPrefix).performed before.kv event,
            Backend.d1.performed before.d1 event⟩ := by
  constructor
  · rintro ⟨positive, kv, d1⟩
    refine ⟨positive, ?_⟩
    rw [← evaluates_perform.mp kv, ← evaluates_perform.mp d1]
  · rintro ⟨positive, rfl⟩
    exact ⟨positive, (@evaluates_perform platform (.kv keyPrefix) event _ _).mpr rfl,
      (@evaluates_perform platform .d1 event _ _).mpr rfl⟩

/-- Both stores show the same of every id that a key can carry, and a revocation in KV is a time. -/
structure Both.Same (keyPrefix : String) (both : Both) : Prop where
  shows : ∀ keyId, isKeyId keyId.toList →
    (Backend.kv keyPrefix).standing both.kv keyId = Backend.d1.standing both.d1 keyId
  marked : ∀ keyId text, isKeyId keyId.toList →
    both.kv.text (revokedKey keyPrefix keyId) = some text → text.number.truthy = true

/-- Stores that show the same are verified against alike. -/
theorem Both.Same.agree (same : both.Same keyPrefix) : both.Agree platform keyPrefix := by
  intro options req readAt user
  have decided (backend : Backend) (storage : Storage)
      : (∃ after, (verify platform backend.store options req).Evaluates (exec platform (· = readAt))
          storage user after)
        ↔ user = verdict platform options req readAt (backend.standing storage) := by
    simp [evaluates_verify]
  have equal : verdict platform options req readAt ((Backend.kv keyPrefix).standing both.kv)
      = verdict platform options req readAt (Backend.d1.standing both.d1) := by
    unfold verdict
    cases presented : (options.getKey req).bind parseApiKey with
    | none => rfl
    | some parsed =>
        obtain ⟨raw, _, read⟩ := Option.bind_eq_some_iff.mp presented
        rw [Option.bind_some, Option.bind_some, same.shows _ (eq_keyText_of_parsed read).1.keyId]
  exact (decided (.kv keyPrefix) both.kv).trans (equal ▸ (decided .d1 both.d1).symm)

-----------------------------------------------------------------------------------------
-- What each call keeps
-----------------------------------------------------------------------------------------

/-- A touch that no revocation is under keeps both stores the same. -/
theorem Both.Same.touched (same : both.Same keyPrefix) {keyId : String} {lastUsedAt : JsNumber}
    (apart : ∀ revoked, isKeyId revoked.toList → keyId = "revoked:" ++ revoked →
      both.kv.text (revokedKey keyPrefix revoked) = none)
    : Both.Same keyPrefix ⟨(Backend.kv keyPrefix).touched both.kv keyId lastUsedAt,
        Backend.d1.touched both.d1 keyId lastUsedAt⟩ := by
  have unmarked {sought : String} (readable : isKeyId sought.toList) (names : keyId = "revoked:" ++ sought)
      : (Backend.kv keyPrefix).touched both.kv keyId lastUsedAt = both.kv := by
    have absent := apart sought readable names
    rw [← recordKey_eq_revokedKey.mpr names] at absent
    simp [Backend.touched, absent]
  constructor
  · intro sought readable
    have row : Backend.d1.standing (Backend.d1.touched both.d1 keyId lastUsedAt) sought
        = Backend.d1.standing both.d1 sought :=
      standing_touchRow
    refine Eq.trans ?_ row.symm
    by_cases names : keyId = "revoked:" ++ sought
    · dsimp only
      rw [unmarked readable names]
      exact same.shows sought readable
    · exact (standing_touched names).trans (same.shows sought readable)
  · intro sought text readable stored
    refine same.marked sought text readable ?_
    by_cases names : keyId = "revoked:" ++ sought
    · rwa [unmarked readable names] at stored
    · have other : revokedKey keyPrefix sought ≠ recordKey keyPrefix keyId := by
        rw [Ne, eq_comm, recordKey_eq_revokedKey]
        exact names
      exact (text_touched other).symm.trans stored

/-- A revocation at a positive time keeps both stores the same, unless the row was revoked at zero. -/
theorem Both.Same.revoked (same : both.Same keyPrefix) {keyId : String} {readAt : Millis}
    (positive : 0 < readAt)
    (unzeroed : isKeyId keyId.toList → ∀ row, both.d1.rows.find keyId = some row → row.revokedAt ≠ some 0)
    : Both.Same keyPrefix ⟨(Backend.kv keyPrefix).revoked both.kv keyId readAt,
        Backend.d1.revoked both.d1 keyId readAt⟩ := by
  constructor
  · intro sought readable
    have rows : sought = keyId →
        ∀ row, both.d1.rows.find sought = some row → row.revokedAt ≠ some 0 := by
      rintro rfl
      exact unzeroed readable
    have apart : sought ≠ "revoked:" ++ keyId := ne_revoked_of_isKeyId readable
    refine (standing_revokedAt positive.ne' apart).trans
      (Eq.trans ?_ (standing_revokeRow positive.ne' rows).symm)
    rw [same.shows sought readable]
  · intro sought text readable stored
    simp only [Backend.revoked, text_putText] at stored
    split at stored
    · cases stored
      simp [KvText.number, JsNumber.truthy, positive.ne']
    · exact same.marked sought text readable stored

/-- A row that is written over one of the same id and environment shows what the new one does. -/
theorem standing_replacedBy {stored row : ApiKeyRow} (keyId : stored.keyId = row.keyId)
    (env : stored.env = row.env)
    : (stored.replacedBy row).toRecord.standing = row.toRecord.standing := by
  simp [ApiKeyRow.toRecord, StoredApiKey.standing, userOf, keyId, env]

/-- The row of a record is its own, with its environment and its revocation. -/
theorem ApiKeyRecord.row_fields {record : ApiKeyRecord} {row : ApiKeyRow} (bound : record.row = some row)
    : row.keyId = record.keyId ∧ row.env = record.env
      ∧ row.revokedAt = record.revokedAt.bind JsNumber.written := by
  simp only [ApiKeyRecord.row, Option.bind_eq_some_iff, Option.map_eq_some_iff] at bound
  obtain ⟨claims, _, createdAt, _, rfl⟩ := bound
  exact ⟨rfl, rfl, rfl⟩

/-- After a put that both stores treat alike they show the same record. -/
theorem Both.Same.put_shows (same : both.Same keyPrefix) {record : ApiKeyRecord} {stored : StoredApiKey}
    {row : ApiKeyRow} (readable : isKeyId record.keyId.toList)
    (alike : AlikePut keyPrefix both record) (written : record.written = some stored)
    (bound : record.row = some row)
    : (kvRecord (some (.record stored)) (both.kv.text (revokedKey keyPrefix record.keyId))).map
        StoredApiKey.standing
      = some (((both.d1.rows.find row.keyId).map (fun old => old.replacedBy row)).getD
          row).toRecord.standing := by
  obtain ⟨named, env, revokedAt⟩ := ApiKeyRecord.row_fields bound
  have shown : (((both.d1.rows.find row.keyId).map (fun old => old.replacedBy row)).getD
      row).toRecord.standing = row.toRecord.standing := by
    cases found : both.d1.rows.find row.keyId with
    | none => rfl
    | some old =>
        rw [named] at found
        exact standing_replacedBy ((Table.key_of_find found).trans named.symm)
          ((alike.env old found).trans env.symm)
  have recorded := standing_row bound
  rw [ApiKeyRecord.standing, written] at recorded
  rw [shown]
  cases marker : both.kv.text (revokedKey keyPrefix record.keyId) with
  | none => exact recorded
  | some text =>
      have truthy := same.marked record.keyId text readable marker
      have revoked : row.toRecord.standing.revoked = true := by
        have own := alike.revoked (by rw [marker]; rfl)
        rw [← revokedAt] at own
        obtain ⟨time, found, nonzero⟩ := (Option.any_eq_true ..).mp own
        simpa [ApiKeyRow.toRecord, StoredApiKey.standing, found, JsNumber.truthy] using nonzero
      have already : row.toRecord.standing.revoke = row.toRecord.standing := by
        rw [Standing.revoke, ← revoked]
      have unmarked : (kvRecord (some (.record stored)) none).map StoredApiKey.standing
          = some row.toRecord.standing := recorded
      rw [standing_kvRecord_revoked truthy, unmarked, Option.map_some, already]

/-- A put that both stores treat alike keeps them the same. -/
theorem Both.Same.stored (same : both.Same keyPrefix) {record : ApiKeyRecord}
    (alike : Alike keyPrefix both (.put record))
    : Both.Same keyPrefix ⟨((Backend.kv keyPrefix).stored both.kv record).getD both.kv,
        (Backend.d1.stored both.d1 record).getD both.d1⟩ := by
  cases claims : writtenClaims record.claims with
  | none =>
      simp only [Backend.stored, ApiKeyRecord.written, ApiKeyRecord.row, claims]
      exact same
  | some claims' =>
      obtain ⟨apart, alike⟩ := alike (by rw [claims]; rfl)
      have written : record.written = some (record.withClaims claims') := by
        rw [ApiKeyRecord.written, claims]
        rfl
      have texts : (Backend.kv keyPrefix).stored both.kv record
          = some (both.kv.putText (recordKey keyPrefix record.keyId) (.record (record.withClaims claims'))) := by
        rw [Backend.stored, written]
        rfl
      rw [texts, Option.getD_some]
      constructor
      · intro sought readable
        refine (standing_putText (apart sought readable)).trans ?_
        by_cases named : sought = record.keyId
        · subst named
          obtain ⟨createdAt, dated⟩ := Option.isSome_iff_exists.mp (alike readable).createdAt
          obtain ⟨row, bound⟩ : ∃ row, record.row = some row := by
            simp [ApiKeyRecord.row, claims, dated]
          have own := (ApiKeyRecord.row_fields bound).1
          rw [if_pos rfl, same.put_shows readable (alike readable) written bound, Backend.stored, bound,
            Option.map_some, Option.getD_some, standing_upsertRow, if_pos own.symm]
        · rw [if_neg named]
          refine (same.shows sought readable).trans ?_
          rw [Backend.stored]
          cases bound : record.row with
          | none => rfl
          | some row =>
              have other : sought ≠ row.keyId := (ApiKeyRecord.row_fields bound).1 ▸ named
              rw [Option.map_some, Option.getD_some, standing_upsertRow, if_neg other]
      · intro sought text readable stored
        rw [text_putText, if_neg ?_] at stored
        · exact same.marked sought text readable stored
        · rw [eq_comm, recordKey_eq_revokedKey]
          exact apart sought readable

-----------------------------------------------------------------------------------------
-- Runs
-----------------------------------------------------------------------------------------

/-- A call that both stores treat alike keeps them the same, by cases on the call. -/
theorem BothServe.same {event : TimedCall} (serve : BothServe platform keyPrefix before event after)
    (alike : Alike keyPrefix before event.call) (same : before.Same keyPrefix)
    : after.Same keyPrefix := by
  obtain ⟨positive, rfl⟩ := bothServe_iff.mp serve
  obtain ⟨call, readAt⟩ := event
  cases call with
  | put record => exact same.stored alike
  | findById keyId => exact same
  | revoke keyId => exact same.revoked positive alike
  | touch keyId lastUsedAt => exact same.touched alike

/-- The two stores are interchangeable: after any sequence of calls, made to both at the same positive
times, that both treat alike, `verify` answers the same over both, for every request and time.
-/
theorem stores_interchangeable {events : List TimedCall}
    (run : Sequence (fun before event after =>
      BothServe platform keyPrefix before event after ∧ Alike keyPrefix before event.call)
      ⟨.empty, .empty⟩ events both)
    : both.Agree platform keyPrefix := by
  have empty : Both.Same keyPrefix ⟨.empty, .empty⟩ :=
    { shows := fun _ _ => rfl
      marked := fun _ _ _ stored => by cases stored }
  have same : both.Same keyPrefix := by
    refine Sequence.keeps run (Both.Same keyPrefix) ?_ empty
    intro event _ before after ⟨serve, alike⟩ same
    exact serve.same alike same
  exact same.agree

namespace Sample

/-- The record of the sample's key. -/
def record : ApiKeyRecord :=
  issuedRecord Sample.platform input keyId (base64urlEncode Sample.platform secretBytes) 1000

def putRecord (readAt : Millis) : TimedCall where
  call := .put record
  readAt := readAt

def revokeKey : TimedCall where
  call := .revoke keyId
  readAt := 2000

/-- Both stores after the calls. -/
def performed (events : List TimedCall) : Both where
  kv := events.foldl (Backend.kv "apikey:").performed .empty
  d1 := events.foldl Backend.d1.performed .empty

theorem bothServe_performed (earlier : List TimedCall) (event : TimedCall) (positive : 0 < event.readAt)
    : BothServe Sample.platform "apikey:" (performed earlier) event (performed (earlier ++ [event])) := by
  refine bothServe_iff.mpr ⟨positive, ?_⟩
  simp [performed]

end Sample

/-- After a put and a revocation both stores refuse the key. -/
theorem stores_interchangeable_revoked
    : (Sample.performed [Sample.putRecord 1000, Sample.revokeKey]).Agree Sample.platform "apikey:" := by
  have named : isKeyId Sample.record.keyId.toList := by
    decide +kernel
  have put : Alike "apikey:" (Sample.performed []) (.put Sample.record) := by
    refine fun _ => ⟨fun keyId _ => ne_revoked_of_isKeyId named, fun _ => ⟨rfl, ?_, ?_⟩⟩
    · intro row found
      cases found
    · intro marked
      cases marked
  have revoke : Alike "apikey:" (Sample.performed [Sample.putRecord 1000]) (.revoke Sample.keyId) := by
    intro _ row found
    have unrevoked : ((Sample.performed [Sample.putRecord 1000]).d1.rows.find Sample.keyId).all
        (fun row => row.revokedAt ≠ some 0) = true := by
      decide +kernel
    exact of_decide_eq_true ((Option.all_eq_true ..).mp unrevoked row found)
  have first := Sample.bothServe_performed [] (Sample.putRecord 1000) (by decide +kernel)
  have second := Sample.bothServe_performed [Sample.putRecord 1000] Sample.revokeKey (by decide +kernel)
  exact stores_interchangeable (.cons ⟨first, put⟩ (.cons ⟨second, revoke⟩ .nil))

/-- A record that is put again after its revocation is refused in KV and accepted in D1. -/
theorem put_again_after_revocation
    : (Sequence (BothServe Sample.platform "apikey:") ⟨.empty, .empty⟩
        [Sample.putRecord 1000, Sample.revokeKey, Sample.putRecord 3000]
        (Sample.performed [Sample.putRecord 1000, Sample.revokeKey, Sample.putRecord 3000]))
      ∧ ¬(Sample.performed [Sample.putRecord 1000, Sample.revokeKey, Sample.putRecord 3000]).Agree
        Sample.platform "apikey:" := by
  constructor
  · have serves := Sample.bothServe_performed
    exact .cons (serves [] (Sample.putRecord 1000) (by decide +kernel))
      (.cons (serves [Sample.putRecord 1000] Sample.revokeKey (by decide +kernel))
        (.cons (serves [Sample.putRecord 1000, Sample.revokeKey] (Sample.putRecord 3000) (by decide +kernel))
          .nil))
  · intro agree
    have refused : (verdict Sample.platform {} (Sample.request Sample.key) 4000
        ((Backend.kv "apikey:").standing (Sample.performed
          [Sample.putRecord 1000, Sample.revokeKey, Sample.putRecord 3000]).kv)).isNone = true := by
      decide +kernel
    have accepted : (verdict Sample.platform {} (Sample.request Sample.key) 4000
        (Backend.d1.standing (Sample.performed
          [Sample.putRecord 1000, Sample.revokeKey, Sample.putRecord 3000]).d1)).isSome = true := by
      decide +kernel
    obtain ⟨after, overD1⟩ := (agree {} (Sample.request Sample.key) 4000 none).mp
      ⟨_, (@evaluates_verify _ (.kv "apikey:") _ _ _ _ _ _).mpr
        ⟨(Option.isNone_iff_eq_none.mp refused).symm, rfl⟩⟩
    rw [← ((@evaluates_verify _ .d1 _ _ _ _ _ _).mp overD1).1] at accepted
    cases accepted

end WorkersAuth.ApiKeys

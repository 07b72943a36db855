import WorkersAuth.ApiKeys.Stores
import WorkersAuth.Atomic.Ensures

/-! `issueApiKey`, and `verify` of the API key provider over either store.
What a store shows of a key id is all that `verify` depends on, so each call of a store is
described by what it does to that.
-/

namespace WorkersAuth.ApiKeys

open Atomic Encodings Tables

variable (platform : Platform)

-----------------------------------------------------------------------------------------
-- Issuance
-----------------------------------------------------------------------------------------

structure IssueApiKeyInput where
  env : String
  subjectId : String
  label : Option String := none
  claims : Option JsObject := none
  ttlSec : Option JsNumber := none

structure IssuedApiKey where
  key : String
  keyId : String
  record : ApiKeyRecord

/-- What `issueApiKey` throws: an error of its own, or what `put` threw. -/
inductive IssueError where
  | typeError (message : String)
  | put

/-- `ttlSec ? at + ttlSec * 1000 : null`. -/
def expiryOf (ttlSec : Option JsNumber) (readAt : Millis) : Option JsNumber :=
  (ttlSec.filter JsNumber.truthy).map (fun ttlSec =>
    JsNumber.add (.finite readAt) (ttlSec.mul (.finite 1000)))

/-- The record that is put. -/
def issuedRecord (input : IssueApiKeyInput) (keyId secret : String) (readAt : Millis)
    : ApiKeyRecord where
  keyId
  env := input.env
  secretHash := sha256Hex platform secret
  subjectId := input.subjectId
  label := input.label.filter (· ≠ "")
  claims := input.claims
  createdAt := .finite readAt
  expiresAt := expiryOf input.ttlSec readAt
  lastUsedAt := none
  revokedAt := none

def issueApiKey (store : ApiKeyStore) (input : IssueApiKeyInput)
    : Task (Except IssueError IssuedApiKey) := do
  if ¬isEnv input.env.toList then
    return .error
      (.typeError "issueApiKey: env must be 1-16 lowercase alphanumerics (e.g. \"live\")")
  else if input.subjectId = "" then
    return .error (.typeError "issueApiKey: subjectId is required")
  else
    let keyId := toHex (← Program.perform Op.randomKeyId)
    let secret ← Program.perform Op.randomToken
    let record := issuedRecord platform input keyId secret (← now)
    match ← store.put record with
    | none => return .error .put
    | some () => return .ok { key := keyText input.env keyId secret, keyId, record }

-----------------------------------------------------------------------------------------
-- The provider
-----------------------------------------------------------------------------------------

/-- `Authorization: Bearer`, then `x-api-key`. -/
def defaultGetKey (req : HttpRequest) : Option String :=
  match (req.header "authorization").bind bearerToken with
  | some token => some (.ofList token)
  | none => req.header "x-api-key"

structure ApiKeyOptions where
  env : Option String := none
  getKey : HttpRequest → Option String := defaultGetKey
  trackLastUsed : Bool := false
  name : String := "api-key"

/-- `DUMMY_HASH`. -/
def dummyHash : String := .ofList (List.replicate 64 '0')

/-- The user of an accepted key, for a provider of a name. -/
def userOf (name : String) (record : StoredApiKey) : AuthUser where
  id := record.subjectId
  subjectType := .service
  email := none
  rateLimitId := record.keyId
  claims :=
    let base := ((record.claims.getD []).set "keyId" (.str record.keyId)).set "env" (.str record.env)
    let labelled :=
      match record.label.filter (· ≠ "") with
      | some label => base.set "label" (.str label)
      | none => base
    labelled.set "provider" (.str name)

/-- `record.expiresAt && at >= record.expiresAt`. -/
def StoredApiKey.expired (record : StoredApiKey) (readAt : Millis) : Bool :=
  record.expiresAt.any (fun expiresAt => expiresAt ≠ 0 && expiresAt ≤ readAt)

/-- What `verify` does with a record whose hash has matched. -/
def acceptRecord (store : ApiKeyStore) (options : ApiKeyOptions) (parsed : ParsedApiKey)
    (record : StoredApiKey)
    : Task (Option AuthUser) := do
  if record.revokedAt.any JsNumber.truthy then return none
  else
    let readAt ← now
    if record.expired readAt then return none
    else if record.env ≠ parsed.env then return none
    else if options.env.any (record.env ≠ ·) then return none
    else
      match options.trackLastUsed with
      | true =>
          store.touch record.keyId (.finite readAt)
          return some (userOf options.name record)
      | false => return some (userOf options.name record)

def verify (store : ApiKeyStore) (options : ApiKeyOptions) (req : HttpRequest)
    : Task (Option AuthUser) := do
  match (options.getKey req).filter (· ≠ "") with
  | none => return none
  | some raw =>
      match parseApiKey raw with
      | none => return none
      | some parsed =>
          let record ← store.findById parsed.keyId
          let presented := sha256Hex platform parsed.secret
          let isMatch :=
            timingSafeEqual presented ((record.map StoredApiKey.secretHash).getD dummyHash)
          match record.filter (fun _ => isMatch) with
          | none => return none
          | some record => acceptRecord store options parsed record

-----------------------------------------------------------------------------------------
-- What a store shows
-----------------------------------------------------------------------------------------

/-- One of the two stores, with its prefix. -/
inductive Backend where
  | kv (keyPrefix : String)
  | d1

/-- What `verify` depends on of a record: `user` is the one for a provider of a name. -/
structure Standing where
  env : String
  secretHash : String
  expiresAt : Option ℚ
  revoked : Bool
  user : String → AuthUser

def StoredApiKey.standing (record : StoredApiKey) : Standing where
  env := record.env
  secretHash := record.secretHash
  expiresAt := record.expiresAt.filter (· ≠ 0)
  revoked := record.revokedAt.any JsNumber.truthy
  user name := userOf name record

namespace Backend

def store : Backend → ApiKeyStore
  | .kv keyPrefix => kvApiKeyStore keyPrefix
  | .d1 => d1ApiKeyStore

variable (storage : Storage)

/-- The record a store shows of a key id. -/
def look (keyId : String) : Backend → Option StoredApiKey
  | .kv keyPrefix =>
      kvRecord (storage.text (recordKey keyPrefix keyId)) (storage.text (revokedKey keyPrefix keyId))
  | .d1 => (storage.rows.find keyId).map ApiKeyRow.toRecord

def standing (backend : Backend) (keyId : String) : Option Standing :=
  (backend.look storage keyId).map StoredApiKey.standing

/-- What `put` leaves; nothing when it throws. -/
def stored (record : ApiKeyRecord) : Backend → Option Storage
  | .kv keyPrefix =>
      record.written.map (fun stored =>
        storage.putText (recordKey keyPrefix record.keyId) (.record stored))
  | .d1 => record.row.map storage.upsertRow

/-- What `revoke` leaves at a time. -/
def revoked (keyId : String) (readAt : Millis) : Backend → Storage
  | .kv keyPrefix => storage.putText (revokedKey keyPrefix keyId) (.revokedAt readAt)
  | .d1 => storage.revokeRow keyId readAt

/-- What `touch` leaves. -/
def touched (keyId : String) (lastUsedAt : JsNumber) : Backend → Storage
  | .kv keyPrefix =>
      (((storage.text (recordKey keyPrefix keyId)).bind (KvText.touched lastUsedAt.written)).map
        (storage.putText (recordKey keyPrefix keyId))).getD storage
  | .d1 => storage.touchRow keyId lastUsedAt.written

end Backend

variable {platform : Platform} {clock : Millis → Prop} {backend : Backend} {before after : Storage}

-----------------------------------------------------------------------------------------
-- The calls of a store, run alone
-----------------------------------------------------------------------------------------

/-- `findById` answers what the store shows, in either order of the reads. -/
theorem evaluates_findById {keyId : String} {found : Option StoredApiKey}
    : (backend.store.findById keyId).Evaluates (exec platform clock) before found after
      ↔ found = backend.look before keyId ∧ after = before := by
  cases backend with
  | d1 => simp [Backend.store, d1ApiKeyStore, Backend.look, exec, and_comm]
  | kv keyPrefix =>
      simp only [Backend.store, kvApiKeyStore, Backend.look, Program.perform_bind,
        Program.evaluates_call, exec]
      constructor
      · rintro ⟨first, _, rfl, run⟩
        cases first <;>
        · obtain ⟨_, _, ⟨rfl, rfl⟩, _, _, ⟨rfl, rfl⟩, answered⟩ := by
            simpa only [Program.evaluates_call, Program.perform_bind, exec] using run
          exact Program.evaluates_pure.mp answered
      · rintro ⟨rfl, rfl⟩
        refine ⟨true, after, rfl, ?_⟩
        simp [exec]

/-- `put` stores the record, or throws and stores nothing. -/
theorem evaluates_put {record : ApiKeyRecord} {answer : Option Unit}
    : (backend.store.put record).Evaluates (exec platform clock) before answer after
      ↔ answer = (backend.stored before record).map (fun _ => ())
        ∧ after = (backend.stored before record).getD before := by
  cases backend with
  | d1 =>
      cases put : record.row <;> simp [Backend.store, d1ApiKeyStore, Backend.stored, put, exec]
  | kv keyPrefix =>
      cases put : record.written <;> simp [Backend.store, kvApiKeyStore, Backend.stored, put, exec]

theorem evaluates_revoke {keyId : String} {answer : Unit}
    : (backend.store.revoke keyId).Evaluates (exec platform clock) before answer after
      ↔ ∃ readAt, clock readAt ∧ after = backend.revoked before keyId readAt := by
  cases backend <;> simp [Backend.store, d1ApiKeyStore, kvApiKeyStore, Backend.revoked, exec]

theorem evaluates_touch {keyId : String} {lastUsedAt : JsNumber} {answer : Unit}
    : (backend.store.touch keyId lastUsedAt).Evaluates (exec platform clock) before answer after
      ↔ after = backend.touched before keyId lastUsedAt := by
  cases backend with
  | d1 => simp [Backend.store, d1ApiKeyStore, Backend.touched, exec]
  | kv keyPrefix =>
      simp only [Backend.store, kvApiKeyStore, Backend.touched, Program.perform_bind,
        Program.evaluates_call, exec]
      cases written : (before.text (recordKey keyPrefix keyId)).bind
          (KvText.touched lastUsedAt.written) with
      | none => simp [written]
      | some text => simp [written, exec]

-----------------------------------------------------------------------------------------
-- `verify`, run alone
-----------------------------------------------------------------------------------------

namespace Standing

variable (options : ApiKeyOptions) (parsed : ParsedApiKey) (readAt : Millis) (standing : Standing)

/-- Whether a record is still good for a key of its secret. -/
def Current : Prop :=
  standing.revoked = false ∧ standing.expiresAt.all (readAt < ·) ∧ standing.env = parsed.env
  ∧ options.env.all (standing.env = ·)

instance : Decidable (standing.Current options parsed readAt) := inferInstanceAs (Decidable (_ ∧ _))

end Standing

/-- What `verify` answers, by what a store shows of each key id. -/
def verdict (platform : Platform) (options : ApiKeyOptions) (req : HttpRequest) (readAt : Millis)
    (standing : String → Option Standing)
    : Option AuthUser :=
  ((options.getKey req).bind parseApiKey).bind (fun parsed =>
    ((standing parsed.keyId).filter (fun standing =>
      standing.secretHash = sha256Hex platform parsed.secret
        && standing.Current options parsed readAt)).map (fun standing => standing.user options.name))

/-- What `verify` leaves: an accepted key's last use, if it is tracked. -/
def Backend.used (storage : Storage) (options : ApiKeyOptions) (user : Option AuthUser)
    (readAt : Millis) (backend : Backend)
    : Storage :=
  if options.trackLastUsed then
    (user.map (fun user => backend.touched storage user.rateLimitId (.finite readAt))).getD storage
  else storage

/-- At a known time the clock shows that time. -/
theorem evaluates_now {α : Type} {rest : Millis → Task α} {readAt : Millis} {answer : α}
    : (now >>= rest).Evaluates (exec platform (· = readAt)) before answer after
      ↔ (rest readAt).Evaluates (exec platform (· = readAt)) before answer after := by
  simp [exec]

/-- A refusal leaves the store alone. -/
theorem evaluates_refusal {options : ApiKeyOptions} {readAt : Millis} {user : Option AuthUser}
    : (Pure.pure none : Task (Option AuthUser)).Evaluates (exec platform clock) before user after
      ↔ user = none ∧ after = backend.used before options user readAt := by
  rw [Program.pure_eq, Program.evaluates_pure]
  refine and_congr_right (fun none => ?_)
  simp [none, Backend.used]

/-- A record with the right hash is admitted when it is current, check by check. -/
theorem evaluates_acceptRecord {options : ApiKeyOptions} {parsed : ParsedApiKey} {record : StoredApiKey}
    {readAt : Millis} {user : Option AuthUser}
    : (acceptRecord backend.store options parsed record).Evaluates (exec platform (· = readAt)) before user
        after
      ↔ user = (if record.standing.Current options parsed readAt then
            some (userOf options.name record) else none)
        ∧ after = backend.used before options user readAt := by
  have expired : record.expired readAt = !(record.standing.expiresAt.all (readAt < ·)) := by
    unfold StoredApiKey.expired StoredApiKey.standing
    cases record.expiresAt with
    | none => rfl
    | some expiresAt =>
        by_cases zero : expiresAt = 0 <;> simp [Option.filter, zero, ← not_le]
  have apart : options.env.any (record.env ≠ ·) = !(options.env.all (record.standing.env = ·)) := by
    cases options.env <;> simp [StoredApiKey.standing]
  unfold acceptRecord
  by_cases revoked : record.revokedAt.any JsNumber.truthy
  · have never : ¬record.standing.Current options parsed readAt := by
      simp [Standing.Current, StoredApiKey.standing, revoked]
    rw [if_pos revoked, if_neg never, evaluates_refusal]
  · rw [if_neg revoked, evaluates_now]
    by_cases late : record.expired readAt
    · have never : ¬record.standing.Current options parsed readAt := by
        rw [expired, Bool.not_eq_true'] at late
        simp [Standing.Current, late]
      rw [if_pos late, if_neg never, evaluates_refusal]
    · rw [if_neg late]
      by_cases foreign : record.env ≠ parsed.env
      · have never : ¬record.standing.Current options parsed readAt := by
          simp [Standing.Current, StoredApiKey.standing, foreign]
        rw [if_pos foreign, if_neg never, evaluates_refusal]
      · rw [if_neg foreign]
        by_cases excluded : options.env.any (record.env ≠ ·)
        · have never : ¬record.standing.Current options parsed readAt := by
            rw [apart, Bool.not_eq_true'] at excluded
            simp [Standing.Current, excluded]
          rw [if_pos excluded, if_neg never, evaluates_refusal]
        · have current : record.standing.Current options parsed readAt := by
            rw [apart, Bool.not_eq_true', Bool.not_eq_false] at excluded
            rw [expired, Bool.not_eq_true', Bool.not_eq_false] at late
            exact ⟨eq_false_of_ne_true revoked, late, not_not.mp foreign, excluded⟩
          rw [if_neg excluded, if_pos current]
          unfold Backend.used
          cases options.trackLastUsed with
          | false => simp
          | true =>
              rw [Program.evaluates_bind]
              simp only [evaluates_touch, Program.pure_eq, Program.evaluates_pure, if_true]
              constructor
              · rintro ⟨_, _, rfl, rfl, rfl⟩
                exact ⟨rfl, rfl⟩
              · rintro ⟨rfl, rfl⟩
                exact ⟨(), _, rfl, rfl, rfl⟩

/-- `verify` depends on what the store shows of the key's id. -/
theorem evaluates_verify {options : ApiKeyOptions} {req : HttpRequest} {readAt : Millis}
    {user : Option AuthUser}
    : (verify platform backend.store options req).Evaluates (exec platform (· = readAt)) before user
        after
      ↔ user = verdict platform options req readAt (backend.standing before)
        ∧ after = backend.used before options user readAt := by
  unfold verify verdict
  have presented : (options.getKey req).bind parseApiKey
      = ((options.getKey req).filter (· ≠ "")).bind parseApiKey := by
    cases options.getKey req with
    | none => rfl
    | some raw =>
        by_cases empty : raw = ""
        · subst empty
          decide
        · simp [Option.filter, empty]
  rw [presented]
  cases (options.getKey req).filter (· ≠ "") with
  | none => exact evaluates_refusal
  | some raw =>
      dsimp only [Option.bind_some]
      cases parseApiKey raw with
      | none => exact evaluates_refusal
      | some parsed =>
          dsimp only [Option.bind_some]
          rw [Program.evaluates_bind]
          simp only [evaluates_findById, and_assoc, exists_and_left, exists_eq_left,
            Backend.standing]
          cases backend.look before parsed.keyId with
          | none => exact evaluates_refusal
          | some record =>
              have compared : timingSafeEqual (sha256Hex platform parsed.secret)
                    (((some record).map StoredApiKey.secretHash).getD dummyHash)
                  = decide (record.standing.secretHash = sha256Hex platform parsed.secret) := by
                rw [Bool.eq_iff_iff, timingSafeEqual_iff, decide_eq_true_eq]
                exact eq_comm
              rw [compared]
              by_cases hashed : record.standing.secretHash = sha256Hex platform parsed.secret
              · rw [decide_eq_true hashed, Option.filter_some_pos (by rfl)]
                dsimp only
                rw [evaluates_acceptRecord, Option.map_some, Option.filter_some, decide_eq_true hashed,
                  Bool.true_and]
                simp only [decide_eq_true_eq]
                by_cases current : record.standing.Current options parsed readAt
                · rw [if_pos current, if_pos current, Option.map_some]
                  exact .rfl
                · rw [if_neg current, if_neg current, Option.map_none]
              · rw [decide_eq_false hashed, Option.filter_some_neg (by simp), Option.map_some,
                  Option.filter_some_neg (by simp [hashed]), Option.map_none]
                exact evaluates_refusal

-----------------------------------------------------------------------------------------
-- `issueApiKey`, run alone
-----------------------------------------------------------------------------------------

/-- What `issueApiKey` can answer and leave, case by case. -/
inductive Issues (platform : Platform) (backend : Backend) (input : IssueApiKeyInput)
    (readAt : Millis) (before : Storage)
    : Except IssueError IssuedApiKey → Storage → Prop
  | malformed (env : ¬isEnv input.env.toList)
    : Issues platform backend input readAt before
        (.error (.typeError "issueApiKey: env must be 1-16 lowercase alphanumerics (e.g. \"live\")"))
        before
  | anonymous (env : isEnv input.env.toList) (subject : input.subjectId = "")
    : Issues platform backend input readAt before
        (.error (.typeError "issueApiKey: subjectId is required")) before
  | thrown {bytes : Bytes} {secret : String} (env : isEnv input.env.toList)
    (subject : input.subjectId ≠ "") (length : bytes.length = 12) (unused : before.Unused (toHex bytes))
    (isToken : IsToken platform secret)
    (put : backend.stored (before.draw (toHex bytes))
      (issuedRecord platform input (toHex bytes) secret readAt) = none)
    : Issues platform backend input readAt before (.error .put) (before.draw (toHex bytes))
  | issued {bytes : Bytes} {secret : String} {after : Storage} (env : isEnv input.env.toList)
    (subject : input.subjectId ≠ "") (length : bytes.length = 12) (unused : before.Unused (toHex bytes))
    (isToken : IsToken platform secret)
    (put : backend.stored (before.draw (toHex bytes))
      (issuedRecord platform input (toHex bytes) secret readAt) = some after)
    : Issues platform backend input readAt before
        (.ok {
          key := keyText input.env (toHex bytes) secret
          keyId := toHex bytes
          record := issuedRecord platform input (toHex bytes) secret readAt })
        after

/-- `issueApiKey` throws at bad arguments, else draws an id and a secret and puts the record. -/
theorem evaluates_issueApiKey {input : IssueApiKeyInput} {readAt : Millis}
    {answer : Except IssueError IssuedApiKey}
    : (issueApiKey platform backend.store input).Evaluates (exec platform (· = readAt)) before answer
        after
      ↔ Issues platform backend input readAt before answer after := by
  constructor
  · intro run
    unfold issueApiKey at run
    split at run
    · next env =>
        obtain ⟨rfl, rfl⟩ := Program.evaluates_pure.mp run
        exact .malformed env
    · next env =>
        split at run
        · next subject =>
            obtain ⟨rfl, rfl⟩ := Program.evaluates_pure.mp run
            exact .anonymous (not_not.mp env) subject
        · next subject =>
            rw [Program.perform_bind, Program.evaluates_call] at run
            obtain ⟨bytes, _, ⟨length, unused, rfl⟩, run⟩ := run
            rw [Program.perform_bind, Program.evaluates_call] at run
            obtain ⟨secret, _, ⟨isToken, rfl⟩, run⟩ := run
            rw [evaluates_now] at run
            obtain ⟨result, middle, put, run⟩ := Program.evaluates_bind.mp run
            obtain ⟨rfl, rfl⟩ := evaluates_put.mp put
            cases stored : backend.stored (before.draw (toHex bytes))
                (issuedRecord platform input (toHex bytes) secret readAt) with
            | none =>
                rw [stored] at run
                obtain ⟨rfl, rfl⟩ := Program.evaluates_pure.mp run
                exact .thrown (not_not.mp env) subject length unused isToken stored
            | some finish =>
                rw [stored] at run
                obtain ⟨rfl, rfl⟩ := Program.evaluates_pure.mp run
                exact .issued (not_not.mp env) subject length unused isToken stored
  · intro issues
    cases issues with
    | malformed env =>
        rw [issueApiKey, if_pos env]
        exact Program.evaluates_pure.mpr ⟨rfl, rfl⟩
    | anonymous env subject =>
        rw [issueApiKey, if_neg (not_not.mpr env), if_pos subject]
        exact Program.evaluates_pure.mpr ⟨rfl, rfl⟩
    | @thrown bytes secret env subject length unused isToken put =>
        rw [issueApiKey, if_neg (not_not.mpr env), if_neg subject]
        rw [Program.perform_bind, Program.evaluates_call]
        refine ⟨bytes, _, ⟨length, unused, rfl⟩, ?_⟩
        rw [Program.perform_bind, Program.evaluates_call]
        refine ⟨secret, _, ⟨isToken, rfl⟩, ?_⟩
        rw [evaluates_now, Program.evaluates_bind]
        refine ⟨none, _, evaluates_put.mpr ⟨by rw [put]; rfl, rfl⟩, ?_⟩
        rw [put]
        exact Program.evaluates_pure.mpr ⟨rfl, rfl⟩
    | @issued bytes secret _ env subject length unused isToken put =>
        rw [issueApiKey, if_neg (not_not.mpr env), if_neg subject]
        rw [Program.perform_bind, Program.evaluates_call]
        refine ⟨bytes, _, ⟨length, unused, rfl⟩, ?_⟩
        rw [Program.perform_bind, Program.evaluates_call]
        refine ⟨secret, _, ⟨isToken, rfl⟩, ?_⟩
        rw [evaluates_now, Program.evaluates_bind]
        refine ⟨some (), _, evaluates_put.mpr ⟨by rw [put]; rfl, rfl⟩, ?_⟩
        rw [put]
        exact Program.evaluates_pure.mpr ⟨rfl, rfl⟩

end WorkersAuth.ApiKeys

import WorkersAuth.ApiKeys.Exactness

/-! When a key that was issued with a lifetime expires.
The expiry is a number, and zero, infinite numbers and `NaN` are read back as no expiry at all.
-/

namespace WorkersAuth.ApiKeys

open Atomic Encodings Tables

/-- `verify` accepts no key of the request. -/
def Refuses (platform : Platform) (backend : Backend) (storage : Storage) (options : ApiKeyOptions)
    (req : HttpRequest) (readAt : Millis)
    : Prop :=
  ∀ keyId, ¬Accepts platform backend storage options req readAt keyId

/-- From a time on the key is refused, whatever has been served since it was issued. -/
def RefusedFrom (platform : Platform) (backend : Backend) (after : Storage) (key : String)
    (from' : Millis → Prop)
    : Prop :=
  ∀ events later, History platform backend after events later →
    ∀ options req readAt, options.getKey req = some key → from' readAt →
      Refuses platform backend later options req readAt

/-- `createdAt + ttlSec * 1000`. -/
def endOf (ttlSec : JsNumber) (createdAt : Millis) : JsNumber :=
  JsNumber.add (.finite createdAt) (ttlSec.mul (.finite 1000))

/-- The key is refused from the end of its lifetime on, and it is not accepted for ever. -/
structure Expires (platform : Platform) (backend : Backend) (after : Storage) (key : String)
    (ttlSec : JsNumber) (createdAt : Millis)
    : Prop where
  refused : RefusedFrom platform backend after key
    (fun readAt => (endOf ttlSec createdAt).le (.finite readAt))
  limited : ∃ deadline, RefusedFrom platform backend after key (deadline ≤ ·)

variable {platform : Platform} {backend : Backend} {before after storage : Storage}
  {issued : IssuedApiKey} {input : IssueApiKeyInput} {readAt createdAt : Millis}
  {events : List Event}

/-- What the store keeps of an expiry is that of a lifetime which is not zero or `NaN` and ends at a
finite time other than zero.
-/
theorem kept_expiry {ttlSec : JsNumber} {expiresAt : ℚ}
    : ((expiryOf (some ttlSec) createdAt).bind JsNumber.written).filter (· ≠ 0) = some expiresAt
      ↔ ttlSec.truthy = true ∧ endOf ttlSec createdAt = .finite expiresAt ∧ expiresAt ≠ 0 := by
  have expiry : expiryOf (some ttlSec) createdAt
      = if ttlSec.truthy then some (endOf ttlSec createdAt) else none := by
    rw [expiryOf, Option.filter_some]
    split <;> rfl
  rw [expiry]
  cases ttlSec.truthy with
  | false => simp
  | true =>
      cases endOf ttlSec createdAt with
      | finite value =>
          simp only [if_true, Option.bind_some, JsNumber.written, Option.filter_eq_some_iff,
            Option.some.injEq, JsNumber.finite.injEq, decide_eq_true_eq, true_and]
      | infinity negative => simp [JsNumber.written]
      | nan => simp [JsNumber.written]

/-- A key is refused at a time that its record's expiry has passed. -/
theorem Minted.refuses (minted : Minted platform input createdAt issued)
    (standard : StandardBtoa platform) (kept : backend.Kept storage) {standing : Standing}
    (shown : backend.standing storage issued.keyId = some standing)
    (expired : standing.expiresAt.all (readAt < ·) = false) {options : ApiKeyOptions}
    {req : HttpRequest} (presents : options.getKey req = some issued.key)
    : Refuses platform backend storage options req readAt := by
  intro keyId accepted
  obtain ⟨parsed, known, read, rfl, knownAs, _, current⟩ := (accepts_iff kept presents).mp accepted
  obtain ⟨secret, _, key, shaped⟩ := minted.read standard
  rw [key, parseApiKey_keyText shaped] at read
  obtain rfl := Option.some.inj read
  obtain rfl := Option.some.inj (shown.symm.trans knownAs)
  exact absurd (current.2.1.symm.trans expired) nofun

/-- A key whose record has no expiry is accepted at every time, by a provider of any environment. -/
theorem Minted.accepted (minted : Minted platform input createdAt issued)
    (standard : StandardBtoa platform) (kept : backend.Kept storage)
    (shown : backend.standing storage issued.keyId = issued.record.standing)
    (unlimited : (issued.record.expiresAt.bind JsNumber.written).filter (· ≠ 0) = none)
    {options : ApiKeyOptions} {req : HttpRequest} (presents : options.getKey req = some issued.key)
    (allowed : options.env = none)
    : Accepts platform backend storage options req readAt issued.keyId := by
  obtain ⟨standing, recorded, unrevoked, shownAs⟩ := minted.standing
  obtain ⟨secret, own, key, shaped⟩ := minted.read standard
  have read := parseApiKey_keyText shaped
  rw [← key] at read
  refine (accepts_iff kept presents).mpr ⟨_, standing, read, rfl, shown.trans recorded,
    shownAs.secretHash.trans own, unrevoked, ?_, shownAs.env, ?_⟩
  · rw [shownAs.expiresAt, unlimited]
    rfl
  · rw [allowed]
    rfl

/-- A key that was issued expires exactly when its lifetime is not zero or `NaN` and ends at a finite
time other than zero.
-/
theorem Issues.expires_iff (standard : StandardBtoa platform) (kept : backend.Kept before)
    (issues : Issues platform backend input createdAt before (.ok issued) after) {ttlSec : JsNumber}
    (given : input.ttlSec = some ttlSec)
    : Expires platform backend after issued.key ttlSec createdAt
      ↔ ttlSec.truthy = true ∧ ∃ expiresAt ≠ 0, endOf ttlSec createdAt = .finite expiresAt := by
  have effect := issues.effect kept
  have minted := issues.minted rfl
  have shown := effect.standing_issued rfl minted.readable
  have expiry : issued.record.expiresAt = expiryOf (some ttlSec) createdAt := by
    cases minted with
    | intro => exact congrArg (expiryOf · createdAt) given
  constructor
  · intro expires
    obtain ⟨deadline, refused⟩ := expires.limited
    cases kept_end : (issued.record.expiresAt.bind JsNumber.written).filter (· ≠ 0) with
    | none =>
        let options : ApiKeyOptions := { getKey := fun _ => some issued.key }
        let req : HttpRequest :=
          { method := "GET", url := "", header _ := none, cookie _ := none, body := .body none }
        have accepted : Accepts platform backend after options req deadline issued.keyId :=
          minted.accepted standard (effect.kept kept) shown kept_end rfl rfl
        exact absurd accepted (refused [] after .nil options req deadline rfl le_rfl _)
    | some expiresAt =>
        rw [expiry] at kept_end
        obtain ⟨truthy, ends, nonzero⟩ := kept_expiry.mp kept_end
        exact ⟨truthy, expiresAt, nonzero, ends⟩
  · rintro ⟨truthy, expiresAt, nonzero, ends⟩
    have kept_end := kept_expiry.mpr ⟨truthy, ends, nonzero⟩
    obtain ⟨standing, recorded, _, shownAs⟩ := minted.standing
    have refused : RefusedFrom platform backend after issued.key (expiresAt ≤ ·) := by
      intro events later history options req readAt presents late
      have keptLater := History.kept history (effect.kept kept)
      obtain ⟨same, revoked⟩ := History.standing history (effect.kept kept) minted.readable
        (effect.fresh issued rfl).2.1
      have passed : standing.expiresAt.all (readAt < ·) = false := by
        rw [shownAs.expiresAt, expiry, kept_end]
        simpa using late
      by_cases revocation : ∃ event ∈ events, event.Revokes issued.keyId
      · have now := revoked revocation
        rw [shown, recorded] at now
        exact minted.refuses standard keptLater now passed presents
      · have now := same (fun event member revokes => revocation ⟨event, member, revokes⟩)
        rw [shown, recorded] at now
        exact minted.refuses standard keptLater now passed presents
    refine ⟨?_, expiresAt, refused⟩
    intro events later history options req readAt presents late
    refine refused events later history options req readAt presents ?_
    rw [ends] at late
    simpa [JsNumber.le, JsNumber.lt] using late

/-- The claims are all that can make `put` throw at an issued record. -/
theorem stored_issuedRecord_isSome {secret keyId : String}
    : (backend.stored before (issuedRecord platform input keyId secret createdAt)).isSome
      = (writtenClaims input.claims).isSome := by
  cases written : writtenClaims input.claims with
  | none => cases backend <;> simp [Backend.stored, ApiKeyRecord.row, ApiKeyRecord.written,
      issuedRecord, written]
  | some claims => cases backend <;> simp [Backend.stored, ApiKeyRecord.row, ApiKeyRecord.written,
      issuedRecord, written, JsNumber.written]

/-- The arguments with which a key is issued. -/
theorem Issues.arguments {answer : Except IssueError IssuedApiKey}
    (issues : Issues platform backend input createdAt before answer after) (ok : answer = .ok issued)
    : isEnv input.env.toList ∧ input.subjectId ≠ "" ∧ (writtenClaims input.claims).isSome := by
  cases issues with
  | malformed env => cases ok
  | anonymous env subject => cases ok
  | thrown env subject length unused isToken put => cases ok
  | @issued bytes secret _ env subject length unused isToken put =>
      refine ⟨env, subject, ?_⟩
      rw [← stored_issuedRecord_isSome, put]
      rfl

/-- What throws stores nothing, and does so for its arguments. -/
theorem Issues.threw {answer : Except IssueError IssuedApiKey} {thrown : IssueError}
    (issues : Issues platform backend input createdAt before answer after)
    (error : answer = .error thrown)
    : (after.kv = before.kv ∧ after.rows = before.rows)
      ∧ ¬(isEnv input.env.toList ∧ input.subjectId ≠ "" ∧ (writtenClaims input.claims).isSome) := by
  cases issues with
  | malformed env => exact ⟨⟨rfl, rfl⟩, fun arguments => env arguments.1⟩
  | anonymous env subject => exact ⟨⟨rfl, rfl⟩, fun arguments => arguments.2.1 subject⟩
  | thrown env subject length unused isToken put =>
      refine ⟨⟨rfl, rfl⟩, fun arguments => ?_⟩
      have some := arguments.2.2
      rw [← stored_issuedRecord_isSome, put] at some
      cases some
  | issued env subject length unused isToken put => cases error

/-- Issuing a key throws and stores nothing, or the key is refused from `createdAt + ttlSec * 1000` on
and is not accepted for ever, exactly when there is no lifetime, or one that is not zero or `NaN` and
ends at a finite time other than zero, or the other arguments make it throw.
-/
theorem issued_expires_iff (standard : StandardBtoa platform)
    (history : History platform backend .empty events before)
    {answer : Except IssueError IssuedApiKey}
    (serves : Serves platform backend before ⟨.issue input, .issued answer, createdAt⟩ after)
    : ((∃ thrown, answer = .error thrown ∧ after.kv = before.kv ∧ after.rows = before.rows)
        ∨ ∃ issued, answer = .ok issued
          ∧ ∀ ttlSec ∈ input.ttlSec, Expires platform backend after issued.key ttlSec createdAt)
      ↔ (isEnv input.env.toList → input.subjectId ≠ "" → (writtenClaims input.claims).isSome →
          ∀ ttlSec ∈ input.ttlSec,
            ttlSec.truthy = true ∧ ∃ expiresAt ≠ 0, endOf ttlSec createdAt = .finite expiresAt) := by
  have kept := History.kept history Backend.kept_empty
  have issues := serves.issues
  cases answer with
  | error thrown =>
      obtain ⟨stores, refused⟩ := issues.threw rfl
      refine iff_of_true (.inl ⟨thrown, rfl, stores⟩) (fun env subject claims => ?_)
      exact absurd ⟨env, subject, claims⟩ refused
  | ok issued =>
      obtain ⟨env, subject, claims⟩ := issues.arguments rfl
      constructor
      · rintro (⟨thrown, impossible, _⟩ | ⟨key, same, expires⟩) _ _ _ ttlSec given
        · cases impossible
        · cases same
          exact (issues.expires_iff standard kept given).mp (expires ttlSec given)
      · intro ends
        refine .inr ⟨issued, rfl, fun ttlSec given => ?_⟩
        exact (issues.expires_iff standard kept given).mpr (ends env subject claims ttlSec given)

/-- A key that lives an hour is refused after that hour. -/
theorem issued_expires_hour
    : ∃ answer after,
        Serves Sample.platform .d1 .empty ⟨.issue Sample.input, .issued answer, 1000⟩ after
        ∧ ((∃ thrown, answer = .error thrown ∧ after.kv = Storage.empty.kv
            ∧ after.rows = Storage.empty.rows)
          ∨ ∃ issued, answer = .ok issued ∧ ∀ ttlSec ∈ Sample.input.ttlSec,
            Expires Sample.platform .d1 after issued.key ttlSec 1000) := by
  have computed : (serveAt Sample.platform .d1 (.issue Sample.input, Sample.issuing.2) .empty).any
      (fun served => served.1.issued.isSome) = true := by
    decide +kernel
  obtain ⟨issued, after, serves⟩ := Sample.issued_at computed
  refine ⟨_, after, serves, (issued_expires_iff (fun _ => rfl) .nil serves).mpr ?_⟩
  intro _ _ _ ttlSec given
  obtain rfl := Option.some.inj (Option.mem_def.mp given)
  exact ⟨by decide +kernel, 3601000, by norm_num, by decide +kernel⟩

/-- The sample's key with a lifetime of zero seconds. -/
def Sample.momentary : IssueApiKeyInput := { Sample.input with ttlSec := some (.finite 0) }

/-- A key that is issued with a lifetime of zero seconds does not expire, in either store. -/
theorem zero_lifetime_does_not_end
    : (∃ issued after,
        Serves Sample.platform (.kv "apikey:") .empty
          ⟨.issue Sample.momentary, .issued (.ok issued), 1000⟩ after
        ∧ ¬Expires Sample.platform (.kv "apikey:") after issued.key (.finite 0) 1000)
      ∧ ∃ issued after,
        Serves Sample.platform .d1 .empty ⟨.issue Sample.momentary, .issued (.ok issued), 1000⟩ after
        ∧ ¬Expires Sample.platform .d1 after issued.key (.finite 0) 1000 := by
  have inKv : (serveAt Sample.platform (.kv "apikey:") (.issue Sample.momentary, Sample.issuing.2)
      .empty).any (fun served => served.1.issued.isSome) = true := by
    decide +kernel
  have inD1 : (serveAt Sample.platform .d1 (.issue Sample.momentary, Sample.issuing.2) .empty).any
      (fun served => served.1.issued.isSome) = true := by
    decide +kernel
  obtain ⟨inKv, kv, servesKv⟩ := Sample.issued_at inKv
  obtain ⟨inD1, d1, servesD1⟩ := Sample.issued_at inD1
  refine ⟨⟨inKv, kv, servesKv, fun expires => ?_⟩, inD1, d1, servesD1, fun expires => ?_⟩
  · have ends := (servesKv.issues.expires_iff (fun _ => rfl) Backend.kept_empty rfl).mp expires
    exact absurd ends.1 (by decide)
  · have ends := (servesD1.issues.expires_iff (fun _ => rfl) Backend.kept_empty rfl).mp expires
    exact absurd ends.1 (by decide)

end WorkersAuth.ApiKeys

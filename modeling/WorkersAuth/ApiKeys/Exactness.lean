import WorkersAuth.ApiKeys.Deployment

/-! Verification accepts exactly the keys that were issued and are still good.
The text of an issued key is read as its own parts, the record under its id holds the hash of its
secret alone, and only a revocation of that id changes what the record shows.
-/

namespace WorkersAuth.ApiKeys

open Atomic Encodings Tables

variable {platform : Platform} {backend : Backend} {storage : Storage} {issued : IssuedApiKey}
  {input : IssueApiKeyInput} {readAt : Millis}

-----------------------------------------------------------------------------------------
-- One issued key
-----------------------------------------------------------------------------------------

/-- What an issued key's record shows. -/
structure IssuedApiKey.ShownAs (issued : IssuedApiKey) (standing : Standing) : Prop where
  env : standing.env = issued.record.env
  secretHash : standing.secretHash = issued.record.secretHash
  expiresAt : standing.expiresAt
    = (issued.record.expiresAt.bind JsNumber.written).filter (· ≠ 0)

/-- An issued key's record has a standing, which is not revoked. -/
theorem Minted.standing (minted : Minted platform input readAt issued)
    : ∃ standing, issued.record.standing = some standing ∧ standing.revoked = false
        ∧ issued.ShownAs standing := by
  cases minted with
  | @intro bytes secret claims env length isToken written =>
      let record := issuedRecord platform input (toHex bytes) secret readAt
      refine ⟨(record.withClaims claims).standing, ?_, rfl, ⟨rfl, rfl, rfl⟩⟩
      have same : record.claims = input.claims := rfl
      rw [ApiKeyRecord.standing, ApiKeyRecord.written, same, written]
      rfl

/-- An issued key's id is one that a key can carry. -/
theorem Minted.readable (minted : Minted platform input readAt issued)
    : isKeyId issued.keyId.toList := by
  cases minted with
  | intro env length isToken written => exact isKeyId_toHex length

/-- An issued key is read as the parts that its record is about. -/
theorem Minted.read (minted : Minted platform input readAt issued) (standard : StandardBtoa platform)
    : ∃ secret, issued.record.secretHash = sha256Hex platform secret
        ∧ issued.key = keyText issued.record.env issued.keyId secret
        ∧ ParsedApiKey.Shaped ⟨issued.record.env, issued.keyId, secret⟩ := by
  cases minted with
  | @intro bytes secret claims env length isToken written =>
      obtain ⟨chars, size⟩ := isToken.chars standard
      refine ⟨secret, rfl, rfl, env, isKeyId_toHex length, ?_⟩
      simp [isSecret, size, chars]

/-- The expiry of a key that is issued at a positive time, with a positive lifetime or none, is
null, infinite or positive.
-/
theorem expiryOf_positive (time : smallest ≤ readAt) {ttlSec : Option JsNumber}
    (lifetime : ∀ ttlSec' ∈ ttlSec, JsNumber.Positive ttlSec')
    : expiryOf ttlSec readAt = none ∨ expiryOf ttlSec readAt = some (.infinity false)
      ∨ ∃ expiresAt : ℚ, 0 < expiresAt ∧ expiryOf ttlSec readAt = some (.finite expiresAt) := by
  cases ttlSec with
  | none => exact .inl rfl
  | some ttlSec =>
      have positive := lifetime ttlSec rfl
      refine .inr ?_
      cases ttlSec with
      | nan => exact positive.elim
      | infinity negative =>
          cases positive
          exact .inl rfl
      | finite value =>
          have large : smallest ≤ value := positive
          have truthy : (JsNumber.finite value).truthy = true := by
            simp [JsNumber.truthy, (smallest_pos.trans_le large).ne']
          have product : smallest ≤ value * 1000 := by linarith [smallest_pos]
          rw [expiryOf, Option.filter_some_pos truthy, Option.map_some]
          rcases JsNumber.double_pos product with infinite | ⟨millis, some_millis, finite⟩
          · left
            simp only [JsNumber.mul, infinite, JsNumber.add]
          · simp only [JsNumber.mul, finite, JsNumber.add]
            have sum : smallest ≤ readAt + millis := by linarith
            rcases JsNumber.double_pos sum with
              infinite | ⟨sum, positive, finite⟩
            · exact .inl (congrArg some infinite)
            · exact .inr ⟨sum, positive, congrArg some finite⟩

/-- What is left of the expiry in the store decides as the expiry itself does. -/
theorem IssuedApiKey.ShownAs.current {standing : Standing} (shown : issued.ShownAs standing)
    (expiry : issued.record.expiresAt = none ∨ issued.record.expiresAt = some (.infinity false)
      ∨ ∃ expiresAt : ℚ, 0 < expiresAt ∧ issued.record.expiresAt = some (.finite expiresAt))
    : standing.expiresAt.all (readAt < ·)
      = issued.record.expiresAt.all (JsNumber.lt (.finite readAt)) := by
  rw [shown.expiresAt]
  rcases expiry with never | infinite | ⟨expiresAt, positive, finite⟩
  · rw [never]
    rfl
  · rw [infinite]
    rfl
  · simp [finite, JsNumber.written, JsNumber.lt, Option.filter, positive.ne']

-----------------------------------------------------------------------------------------
-- Acceptance
-----------------------------------------------------------------------------------------

/-- `verify` accepts the request as the key of an id. -/
def Accepts (platform : Platform) (backend : Backend) (storage : Storage) (options : ApiKeyOptions)
    (req : HttpRequest) (readAt : Millis) (keyId : String)
    : Prop :=
  ∃ user after, (verify platform backend.store options req).Evaluates (exec platform (· = readAt))
      storage (some user) after
    ∧ user.rateLimitId = keyId

variable {options : ApiKeyOptions} {req : HttpRequest} {presented keyId : String}
  {events early late : List Event} {event : Event}

/-- Acceptance, by the standing of the id that the presented key names. -/
theorem accepts_iff (kept : backend.Kept storage) (presents : options.getKey req = some presented)
    : Accepts platform backend storage options req readAt keyId
      ↔ ∃ parsed standing, parseApiKey presented = some parsed ∧ parsed.keyId = keyId
          ∧ backend.standing storage keyId = some standing
          ∧ standing.secretHash = sha256Hex platform parsed.secret
          ∧ standing.Current options parsed readAt := by
  constructor
  · rintro ⟨user, after, verified, named⟩
    obtain ⟨accepted, _⟩ := evaluates_verify.mp verified
    obtain ⟨raw, parsed, standing, same, read, shown, hashed, current, rfl⟩ :=
      verdict_eq_some_iff.mp accepted.symm
    obtain rfl := Option.some.inj (presents.symm.trans same)
    have own := (kept.named _ _ (eq_keyText_of_parsed read).1.keyId shown).2 options.name
    rw [own] at named
    exact ⟨parsed, standing, read, named, named ▸ shown, hashed, current⟩
  · rintro ⟨parsed, standing, read, rfl, shown, hashed, current⟩
    have accepted := verdict_eq_some_iff.mpr
      ⟨presented, parsed, standing, presents, read, shown, hashed, current, rfl⟩
    exact ⟨_, _, evaluates_verify.mpr ⟨accepted.symm, rfl⟩,
      (kept.named _ _ (eq_keyText_of_parsed read).1.keyId shown).2 options.name⟩

/-- The standing of an issued key's id later on: its record's, revoked if it was. -/
theorem History.standing_issued
    (history : History platform backend .empty (early ++ event :: late) storage)
    (issue : event.issued = some issued)
    : ∃ standing, backend.standing storage issued.keyId = some standing ∧ issued.ShownAs standing
        ∧ (standing.revoked = false ↔ ∀ later ∈ late, ¬later.Revokes issued.keyId) := by
  obtain ⟨before, first, rest⟩ := Sequence.append_iff.mp history
  obtain ⟨after, ⟨positive, serves⟩, last⟩ := Sequence.cons_iff.mp rest
  have kept := History.kept first Backend.kept_empty
  have effect := serves.effect kept positive.pos
  obtain ⟨input, _, minted, _⟩ := serves.minted issue
  obtain ⟨standing, recorded, unrevoked, shown⟩ := minted.standing
  obtain ⟨_, drawn, _⟩ := effect.fresh issued issue
  have known : backend.standing after issued.keyId = some standing :=
    (effect.standing_issued issue minted.readable).trans recorded
  obtain ⟨same, revoked⟩ :=
    History.standing last (effect.kept kept) minted.readable drawn
  by_cases later : ∃ later ∈ late, later.Revokes issued.keyId
  · refine ⟨standing.revoke, (revoked later).trans (congrArg _ known), ⟨shown.1, shown.2, shown.3⟩, ?_⟩
    obtain ⟨revoking, member, revokes⟩ := later
    exact ⟨fun impossible => Bool.noConfusion impossible,
      fun never => absurd revokes (never revoking member)⟩
  · have never : ∀ later ∈ late, ¬later.Revokes issued.keyId :=
      fun revoking member revokes => later ⟨revoking, member, revokes⟩
    exact ⟨standing, (same never).trans known, shown, fun _ => never, fun _ => unrevoked⟩

/-- A key that a history issued was issued at a positive time. -/
theorem History.minted (history : History platform backend .empty events storage)
    (member : event ∈ events) (issue : event.issued = some issued)
    : event.AtPositiveTime
      ∧ ∃ input, event.request = .issue input ∧ Minted platform input event.readAt issued := by
  obtain ⟨_, _, _, _, _, _, ⟨positive, serves⟩, _⟩ := Sequence.cut history member
  obtain ⟨input, request, minted, _⟩ := serves.minted issue
  exact ⟨positive, input, request, minted⟩

/-- The text whose parts are an issued key's id, its environment and a secret with its hash is the
issued key.
-/
theorem Minted.key_eq (minted : Minted platform input readAt issued)
    (injective : Function.Injective platform.sha256) (standard : StandardBtoa platform)
    {parsed : ParsedApiKey} (read : parseApiKey presented = some parsed)
    (keyId : parsed.keyId = issued.keyId) (env : issued.record.env = parsed.env)
    (hashed : issued.record.secretHash = sha256Hex platform parsed.secret)
    : presented = issued.key := by
  obtain ⟨secret, own, key, _⟩ := minted.read standard
  have same : parsed.secret = secret := injective (toHex_injective (hashed.symm.trans own))
  rw [(eq_keyText_of_parsed read).2, key, env, keyId, same]

/-- Verification is exact: of a store whose records were all issued at positive times, with a positive
lifetime or none, it accepts a string as a record's key when it is the one that was issued, the
record was not revoked since, has not expired and is of the provider's environment; it accepts no
string that was not issued; and a string is read as some parts exactly when they have the
documented shape and it is their text, which no other parts have.
-/
theorem verify_exact (injective : Function.Injective platform.sha256)
    (standard : StandardBtoa platform) (history : History platform backend .empty events storage)
    (lifetimes : ∀ event ∈ events, ∀ input, event.request = .issue input →
      ∀ ttlSec ∈ input.ttlSec, ttlSec.Positive)
    (presents : options.getKey req = some presented)
    : (∀ early event late issued, events = early ++ event :: late → event.issued = some issued →
        (Accepts platform backend storage options req readAt issued.keyId
          ↔ presented = issued.key ∧ (∀ later ∈ late, ¬later.Revokes issued.keyId)
            ∧ issued.record.expiresAt.all (JsNumber.lt (.finite readAt))
            ∧ options.env.all (issued.record.env = ·)))
      ∧ (∀ keyId, Accepts platform backend storage options req readAt keyId →
        ∃ event ∈ events, ∃ issued, event.issued = some issued ∧ presented = issued.key
          ∧ issued.keyId = keyId)
      ∧ (∀ value parsed, parseApiKey value = some parsed
        ↔ parsed.Shaped ∧ value = keyText parsed.env parsed.keyId parsed.secret)
      ∧ ∀ first second : ParsedApiKey, first.Shaped → second.Shaped →
        keyText first.env first.keyId first.secret = keyText second.env second.keyId second.secret →
        first = second := by
  have kept := History.kept history Backend.kept_empty
  refine ⟨?_, ?_, fun _ _ => parseApiKey_eq_some_iff, fun _ _ => keyText_injective⟩
  · rintro early event late issued rfl issue
    have member : event ∈ early ++ event :: late := by simp
    obtain ⟨positive, input, request, minted⟩ := history.minted member issue
    obtain ⟨standing, shown, same, revocations⟩ := history.standing_issued issue
    have expiry : standing.expiresAt.all (readAt < ·)
        = issued.record.expiresAt.all (JsNumber.lt (.finite readAt)) := by
      refine same.current ?_
      cases minted with
      | intro => exact expiryOf_positive positive (lifetimes event member input request)
    rw [accepts_iff kept presents]
    constructor
    · rintro ⟨parsed, known, read, named, knownAs, hashed, unrevoked, unexpired, env, allowed⟩
      obtain rfl := Option.some.inj (shown.symm.trans knownAs)
      rw [same.env] at env allowed
      rw [same.secretHash] at hashed
      exact ⟨minted.key_eq injective standard read named env hashed, revocations.mp unrevoked,
        expiry ▸ unexpired, allowed⟩
    · rintro ⟨rfl, never, unexpired, allowed⟩
      obtain ⟨secret, own, key, shaped⟩ := minted.read standard
      have read := parseApiKey_keyText shaped
      rw [← key] at read
      refine ⟨_, standing, read, rfl, shown, same.secretHash.trans own, revocations.mpr never,
        expiry ▸ unexpired, same.env, ?_⟩
      rw [same.env]
      exact allowed
  · intro keyId accepted
    obtain ⟨parsed, standing, read, rfl, shown, hashed, _, _, env, _⟩ :=
      (accepts_iff kept presents).mp accepted
    obtain ⟨event, member, issued, original, issue, named, recorded, same⟩ :=
      history.origin (eq_keyText_of_parsed read).1.keyId shown
    obtain ⟨_, input, _, minted⟩ := history.minted member issue
    obtain ⟨first, own, _, shownAs⟩ := minted.standing
    obtain rfl := Option.some.inj (recorded.symm.trans own)
    have fields : standing.env = original.env ∧ standing.secretHash = original.secretHash := by
      rcases same with rfl | rfl <;> exact ⟨rfl, rfl⟩
    rw [fields.1, shownAs.env] at env
    rw [fields.2, shownAs.secretHash] at hashed
    exact ⟨event, member, issued, issue, minted.key_eq injective standard read named.symm env hashed,
      named⟩

/-- A key that lives an hour is accepted a second after it was issued. -/
theorem verify_exact_played
    : ∃ storage events issued,
        History Sample.platform (.kv "apikey:") .empty events storage
        ∧ (∃ event ∈ events, event.issued = some issued)
        ∧ Accepts Sample.platform (.kv "apikey:") storage {} (Sample.request Sample.key) 2000
            issued.keyId := by
  have played : (serveAt Sample.platform (.kv "apikey:") Sample.issuing .empty).any (fun served =>
      served.1.issued.any (fun issued => issued.key = Sample.key
        ∧ issued.record.expiresAt = some (.finite 3601000))) = true := by
    decide +kernel
  obtain ⟨⟨event, storage⟩, served, made⟩ := (Option.any_eq_true ..).mp played
  obtain ⟨issued, issue, known⟩ := (Option.any_eq_true ..).mp made
  obtain ⟨key, expiry⟩ := of_decide_eq_true known
  obtain ⟨serves, request, time⟩ := serves_of_serveAt served
  have positive : event.AtPositiveTime := by
    refine smallest_le_one.trans ?_
    rw [time]
    decide +kernel
  have history : History Sample.platform (.kv "apikey:") .empty [event] storage :=
    .cons ⟨positive, serves⟩ .nil
  have lifetimes : ∀ one ∈ [event], ∀ input, one.request = .issue input →
      ∀ ttlSec ∈ input.ttlSec, ttlSec.Positive := by
    rw [List.forall_mem_singleton, request]
    intro input same ttlSec given
    obtain rfl := Request.issue.inj same
    obtain rfl := Option.some.inj (Option.mem_def.mp given)
    exact smallest_le_one.trans (by decide +kernel)
  have presents : ({} : ApiKeyOptions).getKey (Sample.request Sample.key) = some issued.key := by
    rw [key]
    decide +kernel
  refine ⟨storage, [event], issued, history, ⟨event, List.mem_singleton_self _, issue⟩, ?_⟩
  obtain ⟨accepts, _⟩ := verify_exact Sample.platform_sha256_injective (fun _ => rfl) history lifetimes
    presents
  refine (accepts [] event [] issued rfl issue).mpr ⟨rfl, ?_, ?_, rfl⟩
  · exact fun _ member => absurd member List.not_mem_nil
  · rw [expiry]
    decide +kernel

end WorkersAuth.ApiKeys

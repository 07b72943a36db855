import WorkersAuth.ApiKeys.Standings
import WorkersAuth.Atomic.Sequence

/-! Histories in which keys are issued, verified and revoked.
A key ring is what is known of each key id. Every request does to what a store shows what its
event does to a key ring, whichever store it is.
-/

namespace WorkersAuth.ApiKeys

open Atomic Encodings Tables

-----------------------------------------------------------------------------------------
-- Requests
-----------------------------------------------------------------------------------------

inductive Request where
  | issue (input : IssueApiKeyInput)
  | verify (options : ApiKeyOptions) (req : HttpRequest)
  | revoke (keyId : String)

inductive Answer where
  | issued (result : Except IssueError IssuedApiKey)
  | verified (user : Option AuthUser)
  | done

/-- The program of a request. -/
def serve (platform : Platform) (store : ApiKeyStore) : Request → Task Answer
  | .issue input => return .issued (← issueApiKey platform store input)
  | .verify options req => return .verified (← verify platform store options req)
  | .revoke keyId => do
      store.revoke keyId
      return .done

/-- A request with its answer, and the time its clock shows. -/
structure Event where
  request : Request
  answer : Answer
  readAt : Millis

/-- A request is served alone. -/
def Serves (platform : Platform) (backend : Backend) (before : Storage) (event : Event)
    (after : Storage)
    : Prop :=
  (serve platform backend.store event.request).Evaluates (exec platform (· = event.readAt)) before
    event.answer after

/-- The key an event issued. -/
def Event.issued (event : Event) : Option IssuedApiKey :=
  match event.answer with
  | .issued (.ok issued) => some issued
  | _ => none

def Event.Revokes (event : Event) (keyId : String) : Prop := event.request = .revoke keyId

/-- What an event does to what is known of a key id. -/
inductive Event.Changes (event : Event) (keyId : String) (before : Option Standing)
    : Option Standing → Prop
  | issued {issued} (issue : event.issued = some issued) (same : issued.keyId = keyId)
    : Changes event keyId before issued.record.standing
  | revoked (revokes : event.Revokes keyId) (none : event.issued = none)
    : Changes event keyId before (before.map Standing.revoke)
  | untouched (revokes : ¬event.Revokes keyId)
    (other : ∀ issued, event.issued = some issued → issued.keyId ≠ keyId)
    : Changes event keyId before before

-----------------------------------------------------------------------------------------
-- Storages that such histories reach
-----------------------------------------------------------------------------------------

/-- Rows are of drawn ids and were not revoked at the time zero. -/
def Storage.RowsKept (storage : Storage) : Prop :=
  ∀ keyId row, storage.rows.find keyId = some row → keyId ∈ storage.drawn ∧ row.revokedAt ≠ some 0

/-- What a store shows is of ids that were drawn, each under its own id. -/
structure Backend.Kept (backend : Backend) (storage : Storage) : Prop where
  rows : storage.RowsKept
  named : ∀ keyId standing, isKeyId keyId.toList → backend.standing storage keyId = some standing →
    keyId ∈ storage.drawn ∧ ∀ name, (standing.user name).rateLimitId = keyId

variable {platform : Platform} {backend : Backend} {before after : Storage} {event : Event}
  {keyId sought : String}

/-- An id that a key can carry does not begin with `revoked:`. -/
theorem ne_revoked_of_isKeyId (readable : isKeyId keyId.toList) : keyId ≠ "revoked:" ++ sought := by
  rintro rfl
  simp only [isKeyId, Bool.and_eq_true, List.all_eq_true] at readable
  have hex := readable.2 'r' (by simp)
  exact absurd hex (by decide)

/-- A drawn id is one that a key can carry. -/
theorem isKeyId_toHex {bytes : Bytes} (length : bytes.length = 12) : isKeyId (toHex bytes).toList := by
  have digits : (toHex bytes).toList.length = 24 := by
    simp [toHex, length]
  simp only [isKeyId, digits, Bool.and_eq_true, List.all_eq_true]
  exact ⟨by decide, fun char member => isHexChar_of_mem_toHex member⟩

/-- A storage without keys is kept. -/
theorem Backend.kept_empty : backend.Kept .empty where
  rows keyId row found := by cases found
  named keyId standing _ shown := by cases backend <;> cases shown

@[simp] theorem standing_draw : backend.standing (before.draw keyId) sought = backend.standing before sought := by
  cases backend <;> rfl

/-- Under an id that is unused nothing is stored. -/
theorem Storage.Unused.new (unused : before.Unused keyId) (kept : backend.Kept before)
    : backend.New (before.draw keyId) keyId := by
  cases backend with
  | d1 =>
      change before.rows.find keyId = none
      cases found : before.rows.find keyId with
      | none => rfl
      | some row => exact absurd (kept.rows keyId row found).1 unused.1
  | kv keyPrefix =>
      change (before.kv.find (revokedKey keyPrefix keyId)).map KvPair.text = none
      cases found : before.kv.find (revokedKey keyPrefix keyId) with
      | none => rfl
      | some pair =>
          have stored : pair ∈ before.kv.rows := by
            rw [Table.mem_rows_iff, Table.key_of_find found]
            exact found
          refine absurd ?_ (unused.2 pair stored)
          rw [Table.key_of_find found, revokedKey, String.toList_append]
          exact List.suffix_append _ _

-----------------------------------------------------------------------------------------
-- The rows after each call
-----------------------------------------------------------------------------------------

theorem Storage.RowsKept.draw (kept : before.RowsKept) : (before.draw keyId).RowsKept := by
  intro sought row found
  obtain ⟨drawn, unzeroed⟩ := kept sought row found
  exact ⟨List.mem_cons_of_mem _ drawn, unzeroed⟩

theorem Storage.RowsKept.touched {lastUsedAt : JsNumber} (kept : before.RowsKept)
    : (backend.touched before keyId lastUsedAt).RowsKept
      ∧ (backend.touched before keyId lastUsedAt).drawn = before.drawn := by
  cases backend with
  | d1 =>
      refine ⟨?_, rfl⟩
      intro sought row found
      simp only [Backend.touched, Storage.touchRow, Table.find_updateWhere,
        Option.map_eq_some_iff] at found
      obtain ⟨old, there, rfl⟩ := found
      obtain ⟨drawn, unzeroed⟩ := kept sought old there
      refine ⟨drawn, ?_⟩
      split <;> exact unzeroed
  | kv keyPrefix =>
      simp only [Backend.touched]
      cases ((before.text (recordKey keyPrefix keyId)).bind (KvText.touched lastUsedAt.written)) with
      | none => exact ⟨kept, rfl⟩
      | some text => exact ⟨kept, rfl⟩

theorem Storage.RowsKept.revoked {readAt : Millis} (kept : before.RowsKept) (nonzero : readAt ≠ 0)
    : (backend.revoked before keyId readAt).RowsKept
      ∧ (backend.revoked before keyId readAt).drawn = before.drawn := by
  cases backend with
  | d1 =>
      refine ⟨?_, rfl⟩
      intro sought row found
      simp only [Backend.revoked, Storage.revokeRow, Table.find_updateWhere,
        Option.map_eq_some_iff] at found
      obtain ⟨old, there, rfl⟩ := found
      obtain ⟨drawn, unzeroed⟩ := kept sought old there
      refine ⟨drawn, ?_⟩
      split
      · simpa using nonzero
      · exact unzeroed
  | kv keyPrefix => exact ⟨kept, rfl⟩

theorem Storage.RowsKept.stored {record : ApiKeyRecord} (kept : before.RowsKept)
    (drawn : record.keyId ∈ before.drawn) (new : backend.New before record.keyId)
    (unrevoked : record.revokedAt = none) (stored : backend.stored before record = some after)
    : after.RowsKept ∧ after.drawn = before.drawn := by
  cases backend with
  | d1 =>
      obtain ⟨row, bound, rfl⟩ := Option.map_eq_some_iff.mp stored
      simp only [ApiKeyRecord.row, Option.bind_eq_some_iff, Option.map_eq_some_iff] at bound
      obtain ⟨claims, _, createdAt, _, rfl⟩ := bound
      refine ⟨?_, rfl⟩
      have absent : before.rows.find record.keyId = none := new
      intro sought row found
      simp only [Storage.upsertRow, Table.find_upsert, absent] at found
      split at found
      · next same =>
          cases found
          exact ⟨same ▸ drawn, by simp [unrevoked]⟩
      · exact kept sought row found
  | kv keyPrefix =>
      obtain ⟨text, written, rfl⟩ := Option.map_eq_some_iff.mp stored
      exact ⟨kept, rfl⟩

/-- A key is accepted when it names a record with its secret's hash that is still good. -/
theorem verdict_eq_some_iff {options : ApiKeyOptions} {req : HttpRequest} {readAt : Millis}
    {shows : String → Option Standing} {user : AuthUser}
    : verdict platform options req readAt shows = some user
      ↔ ∃ raw parsed standing, options.getKey req = some raw ∧ parseApiKey raw = some parsed
          ∧ shows parsed.keyId = some standing
          ∧ standing.secretHash = sha256Hex platform parsed.secret
          ∧ standing.Current options parsed readAt ∧ user = standing.user options.name := by
  simp only [verdict, Option.bind_eq_some_iff, Option.map_eq_some_iff, Option.filter_eq_some_iff,
    Bool.and_eq_true, decide_eq_true_eq]
  constructor
  · rintro ⟨parsed, ⟨raw, presented, read⟩, standing, ⟨shown, hashed, current⟩, rfl⟩
    exact ⟨raw, parsed, standing, presented, read, shown, hashed, current, rfl⟩
  · rintro ⟨raw, parsed, standing, presented, read, shown, hashed, current, rfl⟩
    exact ⟨parsed, ⟨raw, presented, read⟩, standing, ⟨shown, hashed, current⟩, rfl⟩

-----------------------------------------------------------------------------------------
-- What each request does to what a store shows
-----------------------------------------------------------------------------------------

/-- What serving a request leaves. -/
structure Effect (backend : Backend) (before : Storage) (event : Event) (after : Storage) : Prop where
  rows : after.RowsKept
  grows : ∀ keyId ∈ before.drawn, keyId ∈ after.drawn
  fresh : ∀ issued, event.issued = some issued →
    issued.keyId ∉ before.drawn ∧ issued.keyId ∈ after.drawn
      ∧ issued.record.keyId = issued.keyId
  changes : ∀ keyId, isKeyId keyId.toList →
    event.Changes keyId (backend.standing before keyId) (backend.standing after keyId)

/-- An event that issues and revokes nothing, over a store that shows the same afterwards. -/
theorem Effect.of_same (issued : event.issued = none) (revokes : ∀ keyId, ¬event.Revokes keyId)
    (rows : after.RowsKept) (grows : ∀ keyId ∈ before.drawn, keyId ∈ after.drawn)
    (same : ∀ keyId, isKeyId keyId.toList →
      backend.standing after keyId = backend.standing before keyId)
    : Effect backend before event after := by
  refine ⟨rows, grows, ?_, ?_⟩
  · intro key issue
    rw [issued] at issue
    cases issue
  · intro keyId readable
    rw [same keyId readable]
    refine .untouched (revokes keyId) (fun key issue => ?_)
    rw [issued] at issue
    cases issue

/-- Issuing shows the new record under its id and changes no other. -/
theorem Issues.effect {input : IssueApiKeyInput} {readAt : Millis}
    {answer : Except IssueError IssuedApiKey} (kept : backend.Kept before)
    (issues : Issues platform backend input readAt before answer after)
    : Effect backend before ⟨.issue input, .issued answer, readAt⟩ after := by
  have issuing (keyId : String) : ¬Event.Revokes ⟨.issue input, .issued answer, readAt⟩ keyId :=
    fun revokes => Request.noConfusion revokes
  cases issues with
  | malformed env => exact .of_same rfl issuing kept.rows (fun _ drawn => drawn) (fun _ _ => rfl)
  | anonymous env subject => exact .of_same rfl issuing kept.rows (fun _ drawn => drawn) (fun _ _ => rfl)
  | @thrown bytes secret env subject length unused isToken put =>
      exact .of_same rfl issuing kept.rows.draw (fun _ drawn => List.mem_cons_of_mem _ drawn)
        (fun _ _ => standing_draw)
  | @issued bytes secret _ env subject length unused isToken put =>
      have new := unused.new kept
      have own : (issuedRecord platform input (toHex bytes) secret readAt).keyId = toHex bytes := rfl
      have first : toHex bytes ∈ (before.draw (toHex bytes)).drawn := List.mem_cons_self
      obtain ⟨rows, drawn⟩ := kept.rows.draw.stored (own ▸ first) (own ▸ new) rfl put
      refine {
        rows
        grows := ?_
        fresh := ?_
        changes := ?_ }
      · intro keyId before
        rw [drawn]
        exact List.mem_cons_of_mem _ before
      · intro issued issue
        cases issue
        exact ⟨unused.1, drawn ▸ List.mem_cons_self, rfl⟩
      · intro keyId readable
        have apart : toHex bytes ≠ "revoked:" ++ keyId := ne_revoked_of_isKeyId (isKeyId_toHex length)
        rw [standing_stored put apart new, standing_draw]
        split
        · next same => exact @Event.Changes.issued _ _ _ ⟨_, _, _⟩ rfl same.symm
        · next other =>
            refine .untouched (issuing keyId) (fun issued issue => ?_)
            cases issue
            exact Ne.symm other

/-- Verification changes nothing that verification reads. -/
theorem Backend.used_effect {options : ApiKeyOptions} {req : HttpRequest} {readAt : Millis}
    {user : Option AuthUser} (kept : backend.Kept before)
    (decided : user = verdict platform options req readAt (backend.standing before))
    : Effect backend before ⟨.verify options req, .verified user, readAt⟩
        (backend.used before options user readAt) := by
  have verifying (keyId : String) : ¬Event.Revokes ⟨.verify options req, .verified user, readAt⟩ keyId :=
    fun revokes => Request.noConfusion revokes
  unfold Backend.used
  split
  · cases accepted : user with
    | none => exact .of_same rfl verifying kept.rows (fun _ drawn => drawn) (fun _ _ => rfl)
    | some person =>
        let after := backend.touched before person.rateLimitId (.finite readAt)
        obtain ⟨rows, drawn⟩ : after.RowsKept ∧ after.drawn = before.drawn := kept.rows.touched
        refine .of_same rfl verifying rows (fun _ before => drawn ▸ before) (fun sought readable => ?_)
        obtain ⟨raw, parsed, standing, _, read, shown, _, _, rfl⟩ :=
          verdict_eq_some_iff.mp (accepted.symm.trans decided).symm
        have readKeyId := (eq_keyText_of_parsed read).1.keyId
        rw [Option.map_some, Option.getD_some, (kept.named _ _ readKeyId shown).2]
        exact standing_touched (ne_revoked_of_isKeyId readKeyId)
  · exact .of_same rfl verifying kept.rows (fun _ drawn => drawn) (fun _ _ => rfl)

/-- Revoking shows the id's record as revoked and changes no other. -/
theorem Backend.revoked_effect {readAt : Millis} (kept : backend.Kept before) (positive : 0 < readAt)
    : Effect backend before ⟨.revoke keyId, .done, readAt⟩ (backend.revoked before keyId readAt) := by
  let after := backend.revoked before keyId readAt
  obtain ⟨rows, drawn⟩ : after.RowsKept ∧ after.drawn = before.drawn := kept.rows.revoked positive.ne'
  refine {
    rows
    grows := fun _ before => drawn ▸ before
    fresh := fun issued issue => by cases issue
    changes := ?_ }
  intro sought readable
  rw [standing_revoked positive.ne' (ne_revoked_of_isKeyId readable)
    (fun row found => (kept.rows sought row found).2)]
  split
  · next same => exact .revoked (same ▸ rfl) rfl
  · next other =>
      refine .untouched (fun revokes => ?_) (fun issued issue => by cases issue)
      exact other (Request.revoke.inj revokes).symm

/-- A written record is of its own id. -/
theorem ApiKeyRecord.rateLimitId_of_standing {record : ApiKeyRecord} {standing : Standing}
    (shown : record.standing = some standing) (name : String)
    : (standing.user name).rateLimitId = record.keyId := by
  simp only [ApiKeyRecord.standing, ApiKeyRecord.written, Option.map_map, Option.map_eq_some_iff]
    at shown
  obtain ⟨claims, _, rfl⟩ := shown
  rfl

/-- What is shown after an event was shown before it, or is the record the event issued. -/
theorem Event.Changes.origin {first second : Option Standing} {standing : Standing}
    (changes : event.Changes keyId first second) (shown : second = some standing)
    : (∃ issued, event.issued = some issued ∧ issued.keyId = keyId
        ∧ issued.record.standing = some standing)
      ∨ ∃ old, first = some old ∧ (standing = old ∨ standing = old.revoke) := by
  cases changes with
  | @issued issued issue same => exact .inl ⟨issued, issue, same, shown⟩
  | revoked revokes none =>
      obtain ⟨old, known, rfl⟩ := Option.map_eq_some_iff.mp shown
      exact .inr ⟨old, known, .inr rfl⟩
  | untouched revokes other => exact .inr ⟨standing, shown, .inl rfl⟩

/-- Every request leaves a kept store kept. -/
theorem Effect.kept (effect : Effect backend before event after) (kept : backend.Kept before)
    : backend.Kept after := by
  refine ⟨effect.rows, ?_⟩
  intro keyId standing readable shown
  rcases (effect.changes keyId readable).origin shown with
    ⟨issued, issue, rfl, recorded⟩ | ⟨old, known, rfl | rfl⟩
  · obtain ⟨_, drawn, same⟩ := effect.fresh issued issue
    exact ⟨drawn, fun name => (ApiKeyRecord.rateLimitId_of_standing recorded name).trans same⟩
  · obtain ⟨drawn, own⟩ := kept.named keyId _ readable known
    exact ⟨effect.grows keyId drawn, own⟩
  · obtain ⟨drawn, own⟩ := kept.named keyId _ readable known
    exact ⟨effect.grows keyId drawn, own⟩

/-- A record is shown as it is right after it was issued. -/
theorem Effect.standing_issued {issued : IssuedApiKey} (effect : Effect backend before event after)
    (issue : event.issued = some issued) (readable : isKeyId issued.keyId.toList)
    : backend.standing after issued.keyId = issued.record.standing := by
  have changes := effect.changes issued.keyId readable
  generalize backend.standing after issued.keyId = shows at changes ⊢
  cases changes with
  | issued same _ =>
      obtain rfl := Option.some.inj (issue.symm.trans same)
      rfl
  | revoked _ none => exact absurd (none.symm.trans issue) nofun
  | untouched _ other => exact absurd rfl (other issued issue)

/-- Serving a request has the effect of its event. -/
theorem Serves.effect (serves : Serves platform backend before event after) (kept : backend.Kept before)
    (positive : 0 < event.readAt)
    : Effect backend before event after := by
  obtain ⟨request, answer, readAt⟩ := event
  unfold Serves at serves
  cases request with
  | issue input =>
      obtain ⟨result, middle, issued, answered⟩ := Program.evaluates_bind.mp serves
      obtain ⟨rfl, rfl⟩ := Program.evaluates_pure.mp answered
      exact (evaluates_issueApiKey.mp issued).effect kept
  | verify options req =>
      obtain ⟨user, middle, verified, answered⟩ := Program.evaluates_bind.mp serves
      obtain ⟨rfl, rfl⟩ := Program.evaluates_pure.mp answered
      obtain ⟨decided, rfl⟩ := evaluates_verify.mp verified
      exact Backend.used_effect kept decided
  | revoke keyId =>
      obtain ⟨_, middle, revoked, answered⟩ := Program.evaluates_bind.mp serves
      obtain ⟨rfl, rfl⟩ := Program.evaluates_pure.mp answered
      obtain ⟨_, rfl, rfl⟩ := evaluates_revoke.mp revoked
      exact Backend.revoked_effect kept positive

-----------------------------------------------------------------------------------------
-- Whole histories
-----------------------------------------------------------------------------------------

/-- The clock shows a positive time. -/
def Event.AtPositiveTime (event : Event) : Prop := smallest ≤ event.readAt

/-- Requests served one after the other, at positive times. -/
abbrev History (platform : Platform) (backend : Backend) : Storage → List Event → Storage → Prop :=
  Sequence (fun before event after => event.AtPositiveTime ∧ Serves platform backend before event after)

variable {start storage : Storage} {events : List Event} {issued : IssuedApiKey}

theorem Event.AtPositiveTime.pos (positive : event.AtPositiveTime) : 0 < event.readAt :=
  smallest_pos.trans_le positive

/-- A store stays kept along a history, by induction on it. -/
theorem History.kept (history : History platform backend start events storage)
    (kept : backend.Kept start)
    : backend.Kept storage := by
  refine Sequence.keeps history backend.Kept ?_ kept
  intro event _ before after ⟨positive, serves⟩ kept
  exact (serves.effect kept positive.pos).kept kept

/-- The standing of an id that was drawn changes by revocations only, by induction on the history. -/
theorem History.standing (history : History platform backend start events storage)
    (kept : backend.Kept start) (readable : isKeyId keyId.toList) (drawn : keyId ∈ start.drawn)
    : ((∀ event ∈ events, ¬event.Revokes keyId) →
        backend.standing storage keyId = backend.standing start keyId)
      ∧ ((∃ event ∈ events, event.Revokes keyId) →
        backend.standing storage keyId = (backend.standing start keyId).map Standing.revoke) := by
  induction history with
  | nil => exact ⟨fun _ => rfl, fun ⟨_, member, _⟩ => absurd member List.not_mem_nil⟩
  | @cons before middle after event more first rest ih =>
      obtain ⟨positive, serves⟩ := first
      have effect := serves.effect kept positive.pos
      obtain ⟨same, revoked⟩ := ih (effect.kept kept) (effect.grows keyId drawn)
      have changed := effect.changes keyId readable
      generalize backend.standing before keyId = known at changed ⊢
      generalize backend.standing middle keyId = next at changed same revoked
      have again (standing : Option Standing)
          : (standing.map Standing.revoke).map Standing.revoke = standing.map Standing.revoke := by
        cases standing <;> rfl
      cases changed with
      | issued issue named =>
          exact absurd (named ▸ drawn) (effect.fresh _ issue).1
      | revoked revokes none =>
          refine ⟨fun never => absurd revokes (never event List.mem_cons_self), fun _ => ?_⟩
          by_cases later : ∃ event ∈ more, event.Revokes keyId
          · rw [revoked later, again]
          · exact same (fun event member revokes => later ⟨event, member, revokes⟩)
      | untouched revokes other =>
          constructor
          · intro never
            exact same (fun event member => never event (List.mem_cons_of_mem _ member))
          · rintro ⟨revoking, member, revokesLater⟩
            rcases List.mem_cons.mp member with rfl | later
            · exact absurd revokesLater revokes
            · exact revoked ⟨revoking, later, revokesLater⟩

/-- Every record that is shown was issued, by induction on the history. -/
theorem History.origin (history : History platform backend .empty events storage)
    (readable : isKeyId keyId.toList) {standing : Standing}
    (shown : backend.standing storage keyId = some standing)
    : ∃ event ∈ events, ∃ issued original, event.issued = some issued ∧ issued.keyId = keyId
        ∧ issued.record.standing = some original
        ∧ (standing = original ∨ standing = original.revoke) := by
  have all := Sequence.history history
    (fun past storage => backend.Kept storage ∧ ∀ standing,
      backend.standing storage keyId = some standing →
        ∃ event ∈ past, ∃ issued original, event.issued = some issued ∧ issued.keyId = keyId
          ∧ issued.record.standing = some original
          ∧ (standing = original ∨ standing = original.revoke)) ?_ ⟨Backend.kept_empty, ?_⟩
  · exact all.2 standing shown
  · intro past before event after ⟨positive, serves⟩ ⟨kept, issuedBefore⟩
    have effect := serves.effect kept positive.pos
    refine ⟨effect.kept kept, ?_⟩
    intro standing shown
    rcases (effect.changes keyId readable).origin shown with
      ⟨issued, issue, named, recorded⟩ | ⟨old, known, changed⟩
    · exact ⟨event, by simp, issued, standing, issue, named, recorded, .inl rfl⟩
    · obtain ⟨earlier, member, issued, original, issue, named, recorded, revoked⟩ :=
        issuedBefore old known
      refine ⟨earlier, by simp [member], issued, original, issue, named, recorded, ?_⟩
      rcases changed with rfl | rfl
      · exact revoked
      · rcases revoked with rfl | rfl
        · exact .inr rfl
        · exact .inr rfl
  · intro standing shown
    cases backend <;> cases shown

-----------------------------------------------------------------------------------------
-- Issued keys
-----------------------------------------------------------------------------------------

/-- What is known of a key that was issued. -/
inductive Minted (platform : Platform) (input : IssueApiKeyInput) (readAt : Millis)
    : IssuedApiKey → Prop
  | intro {bytes : Bytes} {secret : String} {claims : Option JsonObject}
    (env : isEnv input.env.toList) (length : bytes.length = 12) (isToken : IsToken platform secret)
    (written : writtenClaims input.claims = some claims)
    : Minted platform input readAt {
        key := keyText input.env (toHex bytes) secret
        keyId := toHex bytes
        record := issuedRecord platform input (toHex bytes) secret readAt }

/-- The claims of a record that is stored have a JSON form. -/
theorem writtenClaims_of_stored {record : ApiKeyRecord}
    (stored : backend.stored before record = some after)
    : ∃ claims, writtenClaims record.claims = some claims := by
  cases backend with
  | d1 =>
      obtain ⟨row, bound, rfl⟩ := Option.map_eq_some_iff.mp stored
      obtain ⟨claims, written, _⟩ := Option.bind_eq_some_iff.mp bound
      exact ⟨claims, written⟩
  | kv keyPrefix =>
      obtain ⟨text, written, rfl⟩ := Option.map_eq_some_iff.mp stored
      obtain ⟨claims, written, _⟩ := Option.map_eq_some_iff.mp written
      exact ⟨claims, written⟩

theorem Issues.minted {input : IssueApiKeyInput} {readAt : Millis}
    {answer : Except IssueError IssuedApiKey}
    (issues : Issues platform backend input readAt before answer after) (ok : answer = .ok issued)
    : Minted platform input readAt issued := by
  cases issues with
  | malformed env => cases ok
  | anonymous env subject => cases ok
  | thrown env subject length unused isToken put => cases ok
  | issued env subject length unused isToken put =>
      cases ok
      obtain ⟨claims, written⟩ := writtenClaims_of_stored put
      exact .intro env length isToken written

/-- What a request to issue does is what `issueApiKey` does. -/
theorem Serves.issues {input : IssueApiKeyInput} {readAt : Millis}
    {answer : Except IssueError IssuedApiKey}
    (serves : Serves platform backend before ⟨.issue input, .issued answer, readAt⟩ after)
    : Issues platform backend input readAt before answer after := by
  obtain ⟨result, middle, made, answered⟩ := Program.evaluates_bind.mp serves
  obtain ⟨same, rfl⟩ := Program.evaluates_pure.mp answered
  cases same
  exact evaluates_issueApiKey.mp made

/-- A key is issued by `issueApiKey`. -/
theorem Serves.minted (serves : Serves platform backend before event after)
    (issue : event.issued = some issued)
    : ∃ input, event.request = .issue input ∧ Minted platform input event.readAt issued
        ∧ Issues platform backend input event.readAt before (.ok issued) after := by
  obtain ⟨request, answer, readAt⟩ := event
  unfold Serves at serves
  cases request with
  | issue input =>
      obtain ⟨result, middle, made, answered⟩ := Program.evaluates_bind.mp serves
      obtain ⟨rfl, rfl⟩ := Program.evaluates_pure.mp answered
      cases result with
      | error thrown => cases issue
      | ok key =>
          cases issue
          have issues := evaluates_issueApiKey.mp made
          exact ⟨input, rfl, issues.minted rfl, issues⟩
  | verify options req =>
      obtain ⟨user, middle, _, answered⟩ := Program.evaluates_bind.mp serves
      obtain ⟨rfl, rfl⟩ := Program.evaluates_pure.mp answered
      cases issue
  | revoke keyId =>
      obtain ⟨_, middle, _, answered⟩ := Program.evaluates_bind.mp serves
      obtain ⟨rfl, rfl⟩ := Program.evaluates_pure.mp answered
      cases issue

end WorkersAuth.ApiKeys

import WorkersAuth.ApiKeys.Deployment
import WorkersAuth.Atomic.Minting

/-! Revocation is permanent, whatever runs at the same time.
Any number of requests issue, verify and revoke keys, one storage operation at a time. Over KV no
operation writes over the time of a revocation, as every other one writes under the key of an id
that a key can carry; over D1 only a record's own `put` resets its row, and it is over by then.
-/

namespace WorkersAuth.ApiKeys

open Atomic Encodings Tables

variable {platform : Platform} {backend : Backend} {keyPrefix : String} {drawn : List String}

/-- Any number of requests over one store, with a clock of positive times. -/
def apiKeyService (platform : Platform) (backend : Backend)
    : Service Op Op.Reply Storage Request Answer where
  program := serve platform backend.store
  exec := exec platform (0 < ·)

abbrev State := Pool Op Op.Reply Storage Request Answer

/-- An issue of the id has been answered. -/
def HasIssued (state : State) (keyId : String) : Prop :=
  ∃ index input issued, state.Answered index (.issue input) (.issued (.ok issued))
    ∧ issued.keyId = keyId

/-- A call that serves a revocation is one of an id that has been issued. -/
def RevokesIssued (state : State) (entry : Entry Op Op.Reply) : Prop :=
  ∀ keyId, state.requestOf entry.thread = some (.revoke keyId) → HasIssued state keyId

-----------------------------------------------------------------------------------------
-- What the operations write
-----------------------------------------------------------------------------------------

/-- A record under its own id, which a key can carry, or a positive time of a revocation. -/
def ProperText (keyPrefix key : String) (text : KvText) : Prop :=
  (∃ stored : StoredApiKey, isKeyId stored.keyId.toList ∧ key = recordKey keyPrefix stored.keyId
    ∧ text = .record stored)
  ∨ ∃ keyId time, key = revokedKey keyPrefix keyId ∧ text = .revokedAt time ∧ 0 < time

/-- The calls that the requests make, when what they read is as promised. A thread's ghost state is
the ids it has drawn.
-/
def proper (keyPrefix : String) : Monitor Op Op.Reply (List String) where
  allows drawn op :=
    match op with
    | .putText key text => ProperText keyPrefix key text
    | .upsertRow row => row.revokedAt = none ∧ row.keyId ∈ drawn
    | .revokeRow _ revokedAt => 0 < revokedAt
    | _ => True
  next drawn op :=
    match op with
    | .randomKeyId => fun bytes => toHex bytes :: drawn
    | _ => fun _ => drawn
  possible op :=
    match op with
    | .clock => fun readAt => 0 < readAt
    | .randomKeyId => fun bytes => bytes.length = 12
    | .getText key => fun reply => ∀ text, reply = some text → ProperText keyPrefix key text
    | .selectRow keyId => fun reply => ∀ row, reply = some row → row.keyId = keyId
    | _ => fun _ => True

/-- What is stored has been written so. -/
structure Proper (keyPrefix : String) (storage : Storage) : Prop where
  texts : ∀ key text, storage.text key = some text → ProperText keyPrefix key text
  rows : ∀ keyId row, storage.rows.find keyId = some row → row.revokedAt ≠ some 0

theorem Proper.empty : Proper keyPrefix .empty where
  texts _ _ stored := by cases stored
  rows _ _ stored := by cases stored

/-- Proper calls find proper texts and leave the storage proper, by cases on the operation. -/
theorem Proper.call {op : Op} {before after : Storage} {reply : op.Reply}
    (allowed : (proper keyPrefix).allows drawn op)
    (executes : exec platform (0 < ·) op before reply after) (kept : Proper keyPrefix before)
    : (proper keyPrefix).possible op reply ∧ Proper keyPrefix after := by
  cases op with
  | clock =>
      obtain ⟨positive, rfl⟩ := executes
      exact ⟨positive, kept⟩
  | randomKeyId =>
      obtain ⟨length, _, rfl⟩ := executes
      exact ⟨length, kept.texts, kept.rows⟩
  | randomToken =>
      obtain ⟨_, rfl⟩ := executes
      exact ⟨trivial, kept⟩
  | recordFirst =>
      obtain rfl := executes
      exact ⟨trivial, kept⟩
  | getText key =>
      obtain ⟨rfl, rfl⟩ := executes
      exact ⟨kept.texts key, kept⟩
  | putText key text =>
      obtain rfl := executes
      refine ⟨trivial, fun sought found stored => ?_, kept.rows⟩
      rw [text_putText] at stored
      split at stored
      · next same =>
          cases stored
          exact same ▸ allowed
      · exact kept.texts sought found stored
  | selectRow keyId =>
      obtain ⟨rfl, rfl⟩ := executes
      exact ⟨fun row found => Table.key_of_find found, kept⟩
  | upsertRow row =>
      obtain rfl := executes
      have unrevoked : row.revokedAt = none := allowed.1
      refine ⟨trivial, kept.texts, fun sought found stored => ?_⟩
      rw [Storage.upsertRow, Table.find_upsert] at stored
      split at stored
      · cases stored
        cases before.rows.find row.keyId <;> simp [unrevoked]
      · exact kept.rows sought found stored
  | revokeRow keyId revokedAt =>
      obtain rfl := executes
      have positive : 0 < revokedAt := allowed
      refine ⟨trivial, kept.texts, fun sought found stored => ?_⟩
      rw [Storage.revokeRow, Table.find_updateWhere] at stored
      obtain ⟨old, there, rfl⟩ := Option.map_eq_some_iff.mp stored
      split
      · simpa using positive.ne'
      · exact kept.rows sought old there
  | touchRow keyId lastUsedAt =>
      obtain rfl := executes
      refine ⟨trivial, kept.texts, fun sought found stored => ?_⟩
      rw [Storage.touchRow, Table.find_updateWhere] at stored
      obtain ⟨old, there, rfl⟩ := Option.map_eq_some_iff.mp stored
      split <;> exact kept.rows sought old there

-----------------------------------------------------------------------------------------
-- The requests make proper calls
-----------------------------------------------------------------------------------------

/-- The prefix of the KV store, which the other store does without. -/
def Backend.prefixOf : Backend → String
  | .kv keyPrefix => keyPrefix
  | .d1 => ""

/-- A text that `touch` rewrites is proper when it was read as one, under a key that an id names. -/
theorem ProperText.touched {keyId : String} (readable : isKeyId keyId.toList) {text rewritten : KvText}
    {lastUsedAt : Option ℚ} (proper : ProperText keyPrefix (recordKey keyPrefix keyId) text)
    (touched : text.touched lastUsedAt = some rewritten)
    : ProperText keyPrefix (recordKey keyPrefix keyId) rewritten := by
  rcases proper with ⟨stored, own, same, rfl⟩ | ⟨other, time, same, _⟩
  · cases touched
    exact .inl ⟨{ stored with lastUsedAt }, own, same, rfl⟩
  · exact absurd (recordKey_eq_revokedKey.mp same) (ne_revoked_of_isKeyId readable)

/-- `touch` of an id that a key can carry makes proper calls. -/
theorem obeys_touch {keyId : String} {lastUsedAt : JsNumber} (readable : isKeyId keyId.toList)
    : (backend.store.touch keyId lastUsedAt).Obeys (proper backend.prefixOf) (fun _ _ => True) drawn := by
  cases backend with
  | d1 => exact ⟨trivial, fun _ _ => trivial⟩
  | kv keyPrefix =>
      refine .perform trivial (fun reply found => ?_)
      cases touched : reply.bind (KvText.touched lastUsedAt.written) with
      | none => exact trivial
      | some text =>
          obtain ⟨old, rfl, rewritten⟩ := Option.bind_eq_some_iff.mp touched
          exact ⟨(found old rfl).touched readable rewritten, fun _ _ => trivial⟩

/-- What proper texts show of an id is a record of it. -/
theorem keyId_of_kvRecord {keyId : String} (readable : isKeyId keyId.toList)
    {record revokedAt : Option KvText}
    (proper : ∀ text, record = some text → ProperText keyPrefix (recordKey keyPrefix keyId) text)
    (shown : StoredApiKey) (same : kvRecord record revokedAt = some shown)
    : shown.keyId = keyId := by
  cases record with
  | none => cases revokedAt <;> cases same
  | some text =>
      rcases proper text rfl with ⟨stored, _, key, rfl⟩ | ⟨other, time, key, _⟩
      · have own : keyId = stored.keyId := recordKey_inj.mp key
        cases revokedAt with
        | none =>
            cases same
            exact own.symm
        | some time =>
            cases same
            exact own.symm
      · exact absurd (recordKey_eq_revokedKey.mp key) (ne_revoked_of_isKeyId readable)

/-- `findById` finds a record of the id. -/
theorem obeys_findById {keyId : String} (readable : isKeyId keyId.toList)
    : (backend.store.findById keyId).Obeys (proper backend.prefixOf)
        (fun _ found => ∀ record, found = some record → record.keyId = keyId) drawn := by
  cases backend with
  | d1 =>
      refine .perform trivial (fun reply found => ?_)
      intro record same
      obtain ⟨row, rfl, rfl⟩ := Option.map_eq_some_iff.mp same
      exact found row rfl
  | kv keyPrefix =>
      refine .perform trivial (fun first _ => ?_)
      cases first with
      | true =>
          refine .perform trivial (fun record found => .perform trivial (fun revokedAt _ => ?_))
          exact keyId_of_kvRecord readable found
      | false =>
          refine .perform trivial (fun revokedAt _ => .perform trivial (fun record found => ?_))
          exact keyId_of_kvRecord readable found

/-- Issuing puts a record under the id that was drawn. -/
theorem obeys_issue {input : IssueApiKeyInput}
    : (issueApiKey platform backend.store input).Obeys (proper backend.prefixOf)
        (fun _ _ => True) drawn := by
  unfold issueApiKey
  split
  · exact .answer trivial
  · split
    · exact .answer trivial
    · refine .perform trivial (fun bytes length => .perform trivial (fun secret _ =>
        .perform trivial (fun readAt _ => ?_)))
      have readable : isKeyId (toHex bytes).toList := isKeyId_toHex length
      have put : (backend.store.put (issuedRecord platform input (toHex bytes) secret readAt)).Obeys
          (proper backend.prefixOf) (fun _ _ => True) (toHex bytes :: drawn) := by
        cases backend with
        | d1 =>
            simp only [Backend.store, d1ApiKeyStore]
            cases bound : (issuedRecord platform input (toHex bytes) secret readAt).row with
            | none => exact trivial
            | some row =>
                simp only [ApiKeyRecord.row, Option.bind_eq_some_iff, Option.map_eq_some_iff] at bound
                obtain ⟨claims, _, createdAt, _, same⟩ := bound
                have own : row.keyId = toHex bytes := by
                  rw [← same]
                  rfl
                have unrevoked : row.revokedAt = none := by
                  rw [← same]
                  rfl
                exact ⟨⟨unrevoked, own ▸ List.mem_cons_self⟩, fun _ _ => trivial⟩
        | kv keyPrefix =>
            simp only [Backend.store, kvApiKeyStore]
            cases written : (issuedRecord platform input (toHex bytes) secret readAt).written with
            | none => exact trivial
            | some stored =>
                obtain ⟨claims, _, same⟩ := Option.map_eq_some_iff.mp written
                have own : stored.keyId = toHex bytes := by
                  rw [← same]
                  rfl
                exact ⟨.inl ⟨stored, own ▸ readable, own ▸ rfl, rfl⟩, fun _ _ => trivial⟩
      refine put.bind (fun _ stored _ => ?_)
      cases stored with
      | none => exact trivial
      | some done => exact trivial

/-- Admitting a record touches it at most. -/
theorem obeys_acceptRecord {options : ApiKeyOptions} {parsed : ParsedApiKey} {record : StoredApiKey}
    (readable : isKeyId record.keyId.toList)
    : (acceptRecord backend.store options parsed record).Obeys (proper backend.prefixOf)
        (fun _ _ => True) drawn := by
  unfold acceptRecord
  split
  · exact .answer trivial
  · refine .perform trivial (fun readAt _ => ?_)
    split
    · exact .answer trivial
    · split
      · exact .answer trivial
      · split
        · exact .answer trivial
        · split
          · exact (obeys_touch readable).bind (fun _ _ _ => .answer trivial)
          · exact .answer trivial

/-- Verification touches the record that it found. -/
theorem obeys_verify {options : ApiKeyOptions} {req : HttpRequest}
    : (verify platform backend.store options req).Obeys (proper backend.prefixOf)
        (fun _ _ => True) drawn := by
  unfold verify
  cases (options.getKey req).filter (· ≠ "") with
  | none => exact .answer trivial
  | some raw =>
      dsimp only
      cases read : parseApiKey raw with
      | none => exact .answer trivial
      | some parsed =>
          have readable := (eq_keyText_of_parsed read).1.keyId
          refine (obeys_findById readable).bind (fun _ found named => ?_)
          cases matched : found.filter _ with
          | none => exact .answer trivial
          | some record =>
              have own := named record (Option.filter_eq_some_iff.mp matched).1
              exact obeys_acceptRecord (own ▸ readable)

/-- Every request makes proper calls. -/
theorem obeys_serve (request : Request)
    : (serve platform backend.store request).Obeys (proper backend.prefixOf) (fun _ _ => True) drawn := by
  cases request with
  | issue input => exact obeys_issue.bind (fun _ _ _ => .answer trivial)
  | verify options req => exact obeys_verify.bind (fun _ _ _ => .answer trivial)
  | revoke keyId =>
      cases backend with
      | d1 =>
          exact .perform trivial (fun readAt positive => ⟨positive, fun _ _ => .answer trivial⟩)
      | kv keyPrefix =>
          refine .perform trivial (fun readAt positive => ⟨?_, fun _ _ => .answer trivial⟩)
          exact .inr ⟨keyId, readAt, rfl, rfl, positive⟩

-----------------------------------------------------------------------------------------
-- Key ids are drawn once
-----------------------------------------------------------------------------------------

/-- The ids of keys, as they are drawn. -/
def keyIds : Mint Op Op.Reply Storage String where
  draws call :=
    match call with
    | ⟨.randomKeyId, bytes⟩ => some (toHex bytes)
    | _ => none
  used storage keyId := keyId ∈ storage.drawn

/-- No id is drawn twice, by cases on the operation. -/
theorem keyIds_fresh : keyIds.Fresh (apiKeyService platform backend).exec where
  unused op before reply after key executes draws := by
    cases op with
    | randomKeyId =>
        obtain ⟨_, unused, rfl⟩ := executes
        cases draws
        exact unused.1
    | _ => cases draws
  taken op before reply after key executes draws := by
    cases op with
    | randomKeyId =>
        obtain ⟨_, unused, rfl⟩ := executes
        cases draws
        exact List.mem_cons_self
    | _ => cases draws
  kept op before reply after key executes known := by
    cases op with
    | randomKeyId =>
        obtain ⟨_, _, rfl⟩ := executes
        exact List.mem_cons_of_mem _ known
    | clock | randomToken | getText | selectRow =>
        obtain ⟨_, rfl⟩ := executes
        exact known
    | _ =>
        obtain rfl := executes
        exact known

/-- The ghost state of a thread is what it has drawn, by induction on its calls. -/
theorem drawn_of_mem_track {keyId : String} {history : List (Call Op Op.Reply)}
    (member : keyId ∈ (proper keyPrefix).track [] history)
    : ∃ call ∈ history, keyIds.draws call = some keyId := by
  induction history using List.reverseRecOn with
  | nil => cases member
  | append_singleton earlier call ih =>
      rw [Monitor.track_append, Monitor.track_singleton] at member
      have old (known : keyId ∈ (proper keyPrefix).track [] earlier)
          : ∃ call' ∈ earlier ++ [call], keyIds.draws call' = some keyId := by
        obtain ⟨made, there, draws⟩ := ih known
        exact ⟨made, List.mem_append_left _ there, draws⟩
      obtain ⟨op, reply⟩ := call
      cases op with
      | randomKeyId =>
          rcases List.mem_cons.mp member with rfl | known
          · exact ⟨_, List.mem_append_right _ (List.mem_singleton_self _), rfl⟩
          · exact old known
      | _ => exact old member

/-- A request that has issued a key has drawn its id. -/
theorem draw_of_issued {state : State}
    (reach : (apiKeyService platform backend).Reachable .empty state) {index : Nat}
    {input : IssueApiKeyInput} {issued : IssuedApiKey}
    (answered : state.Answered index (.issue input) (.issued (.ok issued)))
    : ∃ call ∈ state.history index, keyIds.draws call = some issued.keyId := by
  have leads := Service.Reachable.leads_answered reach answered
  obtain ⟨first, second, result, history, issue, answer⟩ := Program.leads_bind_pure.mp leads
  obtain ⟨rfl, same⟩ := Program.leads_pure.mp answer
  cases same
  unfold issueApiKey at issue
  split at issue
  · cases (Program.leads_pure.mp issue).2
  · split at issue
    · cases (Program.leads_pure.mp issue).2
    · rw [Program.perform_bind, Program.leads_call_pure] at issue
      obtain ⟨bytes, afterBytes, rfl, issue⟩ := issue
      rw [Program.perform_bind, Program.leads_call_pure] at issue
      obtain ⟨secret, afterSecret, rfl, issue⟩ := issue
      rw [Program.perform_bind, Program.leads_call_pure] at issue
      obtain ⟨readAt, afterClock, rfl, issue⟩ := issue
      obtain ⟨puts, none, stored, rfl, _, finish⟩ := Program.leads_bind_pure.mp issue
      refine ⟨⟨.randomKeyId, bytes⟩, by simp [history], ?_⟩
      cases stored with
      | none => cases (Program.leads_pure.mp finish).2
      | some done =>
          cases (Program.leads_pure.mp finish).2
          rfl

-----------------------------------------------------------------------------------------
-- A revoked key stays revoked
-----------------------------------------------------------------------------------------

/-- The store shows the key as revoked, if it shows it at all. -/
def Revoked (storage : Storage) (keyId : String) : Backend → Prop
  | .kv keyPrefix =>
      ∃ time, 0 < time ∧ storage.text (revokedKey keyPrefix keyId) = some (.revokedAt time)
  | .d1 => ∀ row, storage.rows.find keyId = some row → ∃ time ≠ 0, row.revokedAt = some time

/-- A proper call leaves a key revoked, unless it writes a new row of it. -/
theorem Revoked.call {keyId : String} {op : Op} {before after : Storage} {reply : op.Reply}
    (revoked : Revoked before keyId backend)
    (allowed : (proper backend.prefixOf).allows drawn op)
    (executes : exec platform (0 < ·) op before reply after)
    (other : ∀ row, op = .upsertRow row → row.keyId ≠ keyId)
    : Revoked after keyId backend := by
  cases op with
  | clock | randomToken | getText | selectRow =>
      obtain ⟨_, rfl⟩ := executes
      exact revoked
  | recordFirst =>
      obtain rfl := executes
      exact revoked
  | randomKeyId =>
      obtain ⟨_, _, rfl⟩ := executes
      cases backend <;> exact revoked
  | putText key text =>
      obtain rfl := executes
      cases backend with
      | d1 => exact revoked
      | kv keyPrefix =>
          obtain ⟨time, positive, stored⟩ := revoked
          by_cases same : revokedKey keyPrefix keyId = key
          · subst same
            have written : ProperText keyPrefix (revokedKey keyPrefix keyId) text := allowed
            rcases written with ⟨record, own, key, _⟩ | ⟨_, later, _, rfl, positive⟩
            · exact absurd (recordKey_eq_revokedKey.mp key.symm) (ne_revoked_of_isKeyId own)
            · exact ⟨later, positive, by rw [text_putText, if_pos rfl]⟩
          · exact ⟨time, positive, by rw [text_putText, if_neg same, stored]⟩
  | upsertRow row =>
      obtain rfl := executes
      cases backend with
      | kv keyPrefix => exact revoked
      | d1 =>
          intro found stored
          rw [Storage.upsertRow, Table.find_upsert, if_neg (other row rfl).symm] at stored
          exact revoked found stored
  | revokeRow revokes revokedAt =>
      obtain rfl := executes
      cases backend with
      | kv keyPrefix => exact revoked
      | d1 =>
          intro found stored
          rw [Storage.revokeRow, Table.find_updateWhere] at stored
          obtain ⟨old, there, rfl⟩ := Option.map_eq_some_iff.mp stored
          obtain ⟨time, nonzero, known⟩ := revoked old there
          refine ⟨time, nonzero, ?_⟩
          simp [known]
  | touchRow touches lastUsedAt =>
      obtain rfl := executes
      cases backend with
      | kv keyPrefix => exact revoked
      | d1 =>
          intro found stored
          rw [Storage.touchRow, Table.find_updateWhere] at stored
          obtain ⟨old, there, rfl⟩ := Option.map_eq_some_iff.mp stored
          obtain ⟨time, nonzero, known⟩ := revoked old there
          refine ⟨time, nonzero, ?_⟩
          split <;> exact known

/-- What a run under a condition has reached. -/
theorem HasIssued.run {state later : State} {keyId : String} (issued : HasIssued state keyId)
    (run : (apiKeyService platform backend).Run state later)
    : HasIssued later keyId := by
  obtain ⟨index, input, key, answered, named⟩ := issued
  exact ⟨index, input, key, (Service.answered_run run answered).1, named⟩

/-- The storage is proper in every state of a run, and every call in it is proper. -/
theorem proper_of_reachable {state : State}
    (reach : (apiKeyService platform backend).Reachable .empty state)
    : Proper backend.prefixOf state.world
      ∧ ∀ entry next, (apiKeyService platform backend).Performs state entry next →
        (proper backend.prefixOf).allows
          ((proper backend.prefixOf).track [] (state.history entry.thread)) entry.call.op := by
  obtain ⟨kept, obeying⟩ := reach.keeps Proper.empty obeys_serve
    (fun drawn op before reply after allowed executes kept => kept.call allowed executes)
  refine ⟨kept, fun entry next performs => ?_⟩
  obtain ⟨request, rest, found, _⟩ := performs.progress_eq
  exact (obeying _ (List.mem_of_getElem? found)).1

/-- A revoked key stays revoked along a run, by induction on it. -/
theorem Revoked.run {state later : State} {keyId : String} (revoked : Revoked state.world keyId backend)
    (reach : (apiKeyService platform backend).Reachable .empty state)
    (issued : HasIssued state keyId) (run : (apiKeyService platform backend).Run state later)
    : Revoked later.world keyId backend := by
  induction run with
  | refl => exact revoked
  | @tail before after earlier step ih =>
      cases step with
      | arrive request => exact ih
      | @perform entry _ performs =>
          obtain ⟨_, calls⟩ := proper_of_reachable (reach.run earlier)
          have allowed := calls entry after performs
          refine ih.call allowed performs.executes ?_
          intro row upserts same
          obtain ⟨index, input, key, answered, rfl⟩ := issued
          obtain ⟨draw, drew, draws⟩ := draw_of_issued reach answered
          rw [upserts] at allowed
          obtain ⟨own, member, again⟩ := drawn_of_mem_track allowed.2
          exact reach.not_drawn_by_writer keyIds_fresh answered drew draws earlier performs member
            (same ▸ again)

-----------------------------------------------------------------------------------------
-- What a later verification finds
-----------------------------------------------------------------------------------------

/-- A call that was made while the key was revoked. -/
def MadeRevoked (platform : Platform) (backend : Backend) (keyId : String) (made : Call Op Op.Reply)
    : Prop :=
  ∃ before after, exec platform (0 < ·) made.op before made.ret after ∧ Revoked before keyId backend

/-- A record that is found while its key is revoked is a revoked one. -/
theorem found_revoked {keyId : String} {calls : List (Call Op Op.Reply)} {found : Option StoredApiKey}
    (leads : (backend.store.findById keyId).Leads calls (.pure found))
    (revoked : ∀ made ∈ calls, MadeRevoked platform backend keyId made)
    : ∀ record, found = some record → record.revokedAt.any JsNumber.truthy = true := by
  cases backend with
  | d1 =>
      obtain ⟨row, more, rfl, answer⟩ := Program.leads_call_pure.mp leads
      obtain ⟨rfl, result⟩ := Program.leads_pure.mp answer
      cases result
      intro record same
      obtain ⟨stored, rfl, rfl⟩ := Option.map_eq_some_iff.mp same
      obtain ⟨before, after, executes, shown⟩ := revoked _ (List.mem_singleton_self _)
      obtain ⟨time, nonzero, known⟩ := shown stored executes.1.symm
      simp [ApiKeyRow.toRecord, known, JsNumber.truthy, nonzero]
  | kv keyPrefix =>
      have reads : ∃ record text, ⟨.getText (revokedKey keyPrefix keyId), text⟩ ∈ calls
          ∧ found = kvRecord record text := by
        obtain ⟨first, more, rfl, reading⟩ := Program.leads_call_pure.mp leads
        cases first with
        | true =>
            obtain ⟨record, rest, rfl, last⟩ := Program.leads_call_pure.mp reading
            obtain ⟨text, none, rfl, answer⟩ := Program.leads_call_pure.mp last
            cases (Program.leads_pure.mp answer).2
            exact ⟨record, text, by simp, rfl⟩
        | false =>
            obtain ⟨text, rest, rfl, last⟩ := Program.leads_call_pure.mp reading
            obtain ⟨record, none, rfl, answer⟩ := Program.leads_call_pure.mp last
            cases (Program.leads_pure.mp answer).2
            exact ⟨record, text, by simp, rfl⟩
      obtain ⟨record, text, member, rfl⟩ := reads
      obtain ⟨before, after, executes, time, positive, shown⟩ := revoked _ member
      obtain rfl : text = some (.revokedAt time) := executes.1.trans shown
      have truthy : (JsNumber.finite time).truthy = true := by
        simp [JsNumber.truthy, positive.ne']
      intro shown same
      unfold kvRecord at same
      split at same
      · contradiction
      · next stored last _ equal =>
          cases equal
          cases same
          exact truthy
      · contradiction

/-- A verification all of whose calls are made while the key is revoked refuses it. -/
theorem refused_of_revoked {options : ApiKeyOptions} {req : HttpRequest} {raw : String}
    {parsed : ParsedApiKey} {calls : List (Call Op Op.Reply)} {user : Option AuthUser}
    (presents : options.getKey req = some raw) (read : parseApiKey raw = some parsed)
    (leads : (verify platform backend.store options req).Leads calls (.pure user))
    (revoked : ∀ made ∈ calls, MadeRevoked platform backend parsed.keyId made)
    : user = none := by
  have present : raw ≠ "" := by
    rintro rfl
    have unread : parseApiKey "" = none := by decide
    exact absurd (unread.symm.trans read) nofun
  unfold verify at leads
  rw [presents, Option.filter_some_pos (by simpa using present)] at leads
  dsimp only at leads
  rw [read] at leads
  obtain ⟨finding, admitting, found, rfl, finds, rest⟩ := Program.leads_bind_pure.mp leads
  have shown := found_revoked finds
    (fun made member => revoked made (List.mem_append_left _ member))
  cases matched : found.filter _ with
  | none =>
      rw [matched] at rest
      cases (Program.leads_pure.mp rest).2
      rfl
  | some record =>
      rw [matched] at rest
      have truthy := shown record (Option.filter_eq_some_iff.mp matched).1
      dsimp only at rest
      rw [acceptRecord, if_pos truthy] at rest
      cases (Program.leads_pure.mp rest).2
      rfl

-----------------------------------------------------------------------------------------
-- Permanence
-----------------------------------------------------------------------------------------

/-- Once a revocation of an issued key has been answered, there was a state of the run from which on
the key is revoked.
-/
theorem revoked_of_answered {state : State} {revoker : Nat} {keyId : String}
    (start : (apiKeyService platform backend).RunWhen RevokesIssued (.start .empty) state)
    (answered : state.Answered revoker (.revoke keyId) .done)
    : ∃ following : State, (apiKeyService platform backend).Reachable .empty following
        ∧ (apiKeyService platform backend).Run following state ∧ HasIssued following keyId
        ∧ Revoked following.world keyId backend := by
  have write : ∃ call ∈ state.history revoker, ∀ (before : Storage) (drawn : List String) (after : Storage),
      Proper backend.prefixOf before → (proper backend.prefixOf).allows drawn call.op →
      exec platform (0 < ·) call.op before call.ret after → Revoked after keyId backend := by
    have leads := Service.Reachable.leads_answered start.run answered
    obtain ⟨revoking, none, _, history, revokes, _⟩ := Program.leads_bind_pure.mp leads
    cases backend with
    | d1 =>
        obtain ⟨readAt, more, rfl, writes⟩ := Program.leads_call_pure.mp revokes
        obtain rfl := Program.leads_perform.mp writes
        refine ⟨⟨.revokeRow keyId readAt, ()⟩, by simp [history], ?_⟩
        intro before drawn after kept positive executes row found
        obtain rfl := executes
        rw [Storage.revokeRow, Table.find_updateWhere] at found
        obtain ⟨old, there, rfl⟩ := Option.map_eq_some_iff.mp found
        have named := Table.key_of_find there
        cases revokedAt : old.revokedAt with
        | none => exact ⟨readAt, ne_of_gt positive, by simp [named]⟩
        | some time =>
            have nonzero : time ≠ 0 := fun zero => kept.rows keyId old there (by rw [revokedAt, zero])
            exact ⟨time, nonzero, by simp [revokedAt]⟩
    | kv keyPrefix =>
        obtain ⟨readAt, more, rfl, writes⟩ := Program.leads_call_pure.mp revokes
        obtain rfl := Program.leads_perform.mp writes
        refine ⟨⟨.putText (revokedKey keyPrefix keyId) (.revokedAt readAt), ()⟩, by simp [history], ?_⟩
        intro before drawn after kept allowed executes
        obtain rfl := executes
        rcases allowed with ⟨stored, _, _, impossible⟩ | ⟨_, time, _, same, positive⟩
        · cases impossible
        · cases same
          exact ⟨readAt, positive, by rw [text_putText, if_pos rfl]⟩
  obtain ⟨call, recorded, revokes⟩ := write
  obtain ⟨earlier, following, before, condition, performs, rest⟩ :=
    Service.Reachable.start.made_later_when start (Nat.zero_le revoker) recorded
  obtain ⟨kept, calls⟩ := proper_of_reachable before.run
  have serves : earlier.requestOf revoker = some (.revoke keyId) := by
    obtain ⟨request, _, serving, _⟩ := performs.leads before.run
    have still := Service.requestOf_run (.head (.perform performs) rest.run) serving
    rw [Pool.requestOf, answered] at still
    cases still
    exact serving
  have reach : (apiKeyService platform backend).Reachable .empty following :=
    Service.Reachable.step before.run (.perform performs)
  refine ⟨following, reach, rest.run, ?_, revokes _ _ _ kept (calls _ _ performs) performs.executes⟩
  exact (condition keyId serves).run (.single (.perform performs))

/-- Revocation is permanent: whatever the requests to issue, verify and revoke keys, and however their
storage operations interleave, once a revocation of a key has been answered every verification of
that key which starts later refuses it.
-/
theorem revocation_permanent {state later : State} {revoker reader : Nat} {keyId raw : String}
    {options : ApiKeyOptions} {req : HttpRequest} {parsed : ParsedApiKey} {user : Option AuthUser}
    (start : (apiKeyService platform backend).RunWhen RevokesIssued (.start .empty) state)
    (revoked : state.Answered revoker (.revoke keyId) .done)
    (run : (apiKeyService platform backend).RunWhen RevokesIssued state later)
    (arrives : state.threads.length ≤ reader)
    (presents : options.getKey req = some raw) (read : parseApiKey raw = some parsed)
    (names : parsed.keyId = keyId)
    (answered : later.Answered reader (.verify options req) (.verified user))
    : user = none := by
  subst names
  obtain ⟨following, reach, rest, issued, marked⟩ := revoked_of_answered start revoked
  have leads := Service.Reachable.leads_answered (start.run.trans run.run) answered
  obtain ⟨verifying, none, result, history, verifies, answers⟩ := Program.leads_bind_pure.mp leads
  obtain ⟨rfl, same⟩ := Program.leads_pure.mp answers
  cases same
  refine @refused_of_revoked platform _ _ _ _ _ _ _ presents read verifies (fun made member => ?_)
  have recorded : made ∈ later.history reader := by
    rw [history]
    exact List.mem_append_left _ member
  obtain ⟨earlier, next, before, _, performs, _⟩ :=
    Service.Reachable.made_later_when start.run run arrives recorded
  exact ⟨earlier.world, next.world, performs.executes,
    marked.run reach issued (rest.trans before.run)⟩

namespace Sample

/-- Whether an issue of the id has been answered, computed. -/
def hasIssued (state : State) (keyId : String) : Bool :=
  (List.range state.threads.length).any (fun index =>
    match state.answerOf index with
    | some (.issue _, .issued (.ok issued)) => issued.keyId = keyId
    | _ => false)

/-- Whether a call meets the condition, computed. -/
def revokesIssued (state : State) (entry : Entry Op Op.Reply) : Bool :=
  match state.requestOf entry.thread with
  | some (.revoke keyId) => hasIssued state keyId
  | _ => true

theorem revokesIssued_sound (state : State) (entry : Entry Op Op.Reply)
    (computed : revokesIssued state entry = true)
    : RevokesIssued state entry := by
  intro keyId serves
  rw [revokesIssued, serves] at computed
  obtain ⟨index, _, issued⟩ := List.any_eq_true.mp computed
  split at issued
  · next input key answered =>
      exact ⟨index, input, key, Pool.answerOf_eq_some.mp answered, of_decide_eq_true issued⟩
  · cases issued

def tracking : ApiKeyOptions := { trackLastUsed := true }

/-- A key is issued; while one verification has read its record to touch it, it is revoked. -/
def revokedWhileTouched : List (Move Request Outside) :=
  .arrive issuing.1 :: Move.times 4 0 issuing.2
    ++ .arrive (.verify tracking (request key)) :: Move.times 5 1 { readAt := 2000 }
      ++ .arrive (.revoke keyId) :: Move.times 2 2 { readAt := 3000 }

/-- The touch lands, and another verification starts. -/
def verifiedAgain : List (Move Request Outside) :=
  Move.times 1 1 { readAt := 4000 }
    ++ .arrive (.verify tracking (request key)) :: Move.times 3 3 { readAt := 5000 }

/-- The revocation of the sample's key has been answered, before a fourth request arrives. -/
def keyRevoked (state : State) : Bool :=
  state.threads.length = 3
  && match state.answerOf 2 with
    | some (.revoke revokes, .done) => revokes = keyId
    | _ => false

/-- The fourth request was a verification of the sample's key and has been answered. -/
def keyVerified (state : State) : Bool :=
  match state.answerOf 3 with
  | some (.verify options req, .verified _) => options.getKey req = some key
  | _ => false

end Sample

/-- A key is revoked while a verification is about to write its record back: the next one refuses. -/
theorem revocation_permanent_played
    : ∃ state later : State, ∃ options req,
        (apiKeyService Sample.platform (.kv "apikey:")).RunWhen RevokesIssued (.start .empty) state
        ∧ state.Answered 2 (.revoke Sample.keyId) .done
        ∧ (apiKeyService Sample.platform (.kv "apikey:")).RunWhen RevokesIssued state later
        ∧ options.getKey req = some Sample.key
        ∧ later.Answered 3 (.verify options req) (.verified none) := by
  let service := apiKeyService Sample.platform (.kv "apikey:")
  let play := service.play (compute Sample.platform (0 < ·)) Sample.revokesIssued
  have passes : (play (.start .empty) Sample.revokedWhileTouched).any (fun state =>
      Sample.keyRevoked state && (play state Sample.verifiedAgain).any Sample.keyVerified) = true := by
    decide +kernel
  obtain ⟨state, first, checked⟩ := (Option.any_eq_true ..).mp passes
  obtain ⟨revoked, passes⟩ := (Bool.and_eq_true ..).mp checked
  obtain ⟨later, second, verified⟩ := (Option.any_eq_true ..).mp passes
  have start : service.RunWhen RevokesIssued (.start .empty) state :=
    Service.play_runWhen (compute_sound Sample.platform (0 < ·)) Sample.revokesIssued_sound first
  have run : service.RunWhen RevokesIssued state later :=
    Service.play_runWhen (compute_sound Sample.platform (0 < ·)) Sample.revokesIssued_sound second
  have read : (parseApiKey Sample.key).any (fun parsed => parsed.keyId = Sample.keyId) = true := by
    decide +kernel
  obtain ⟨parsed, read, names⟩ := (Option.any_eq_true ..).mp read
  unfold Sample.keyRevoked at revoked
  rw [Bool.and_eq_true] at revoked
  obtain ⟨three, revoked⟩ := revoked
  split at revoked
  · next keyId answer =>
      obtain rfl := of_decide_eq_true revoked
      unfold Sample.keyVerified at verified
      split at verified
      · next options req user answered =>
          have presents := of_decide_eq_true verified
          have answered := Pool.answerOf_eq_some.mp answered
          obtain rfl := revocation_permanent start (Pool.answerOf_eq_some.mp answer) run
            (of_decide_eq_true three).le presents read (of_decide_eq_true names) answered
          exact ⟨state, later, options, req, start, Pool.answerOf_eq_some.mp answer, run, presents,
            answered⟩
      · cases verified
  · cases revoked

end WorkersAuth.ApiKeys

import WorkersAuth.Stores.Serving

/-! What a strongly consistent store answers at an instant, and which calls spare a session.
At an instant neither the clock nor KV's own time moves, so a `get` has one answer, and it
depends on what is stored under one hash and on the revocation list. A call that removes only
what is stored under other hashes leaves that answer as it is.
-/

namespace WorkersAuth.Stores

open Atomic Tables Program

variable {platform : Platform} {store : SessionStore} {time kvTime : Millis}
  {before after : Storage} {sidHash sid : String}

-----------------------------------------------------------------------------------------
-- The answer at an instant
-----------------------------------------------------------------------------------------

/-- Whether the store asks a list and the list says the session is revoked. -/
def SessionStore.revokes (store : SessionStore) (storage : Storage) (sidHash userId : String)
    (readAt createdAt : Millis)
    : Bool :=
  store.revocation.isSome && storage.revokes sidHash userId readAt createdAt

/-- What `get` makes of a row. -/
def SessionStore.servedRow (platform : Platform) (store : SessionStore) (time : Millis)
    (storage : Storage) (sid : String) (row : Option SessionRow)
    : Option Session :=
  (row.filter (fun row =>
    !row.expired time
      && !store.revokes storage (sha256Hex platform sid) row.userId time row.createdAt)).map
    (fun row => rowToSession row sid)

/-- What `get` makes of a record and a marker. -/
def SessionStore.servedRecord (platform : Platform) (store : SessionStore) (time : Millis)
    (storage : Storage) (sid : String) (record : Option StoredSession) (seen : Option SeenMarker)
    : Option Session :=
  (record.filter (fun record =>
    record.v = recordVersion && !record.expired seen time
      && !store.revokes storage (sha256Hex platform sid) record.userId time record.createdAt)).map
    (fun record => record.toSession seen sid)

/-- What `get` answers when the clock reads `time` and KV is at `kvTime`. -/
def SessionStore.served (platform : Platform) (store : SessionStore) (time kvTime : Millis)
    (storage : Storage) (sid : String)
    : Option Session :=
  let sidHash := sha256Hex platform sid
  if store.usesKv then
    store.servedRecord platform time storage sid (storage.records.read sidHash kvTime)
      (storage.seen.read sidHash kvTime)
  else
    store.servedRow platform time storage sid (storage.rows.find sidHash)

/-- What is stored under a hash and the markers of all users are the same. -/
structure Spares (sidHash : String) (before after : Storage) : Prop where
  row : after.rows.find sidHash = before.rows.find sidHash
  record : after.records.current.find sidHash = before.records.current.find sidHash
  seen : after.seen.current.find sidHash = before.seen.current.find sidHash
  tombstone : after.tombstones.find sidHash = before.tombstones.find sidHash
  userMarkers : after.userMarkers = before.userMarkers

theorem Spares.refl (storage : Storage) : Spares sidHash storage storage := ⟨rfl, rfl, rfl, rfl, rfl⟩

theorem Spares.trans {first second third : Storage} (one : Spares sidHash first second)
    (two : Spares sidHash second third)
    : Spares sidHash first third where
  row := two.row.trans one.row
  record := two.record.trans one.record
  seen := two.seen.trans one.seen
  tombstone := two.tombstone.trans one.tombstone
  userMarkers := two.userMarkers.trans one.userMarkers

/-- A session that is spared is served as before. -/
theorem Spares.served (spares : Spares (sha256Hex platform sid) before after)
    : store.served platform time kvTime after sid = store.served platform time kvTime before sid := by
  simp only [SessionStore.served, SessionStore.servedRow, SessionStore.servedRecord,
    SessionStore.revokes, Storage.revokes, KvSpace.read, spares.row, spares.record, spares.seen,
    spares.tombstone, spares.userMarkers]

-----------------------------------------------------------------------------------------
-- Operations that only read and remove
-----------------------------------------------------------------------------------------

/-- The hash a deletion is about. -/
@[simp] def Deletion.target : Deletion → String
  | .row sidHash => sidHash
  | .record sidHash => sidHash
  | .seen sidHash => sidHash

/-- The operation reads, or removes what is stored under one of the hashes. -/
@[simp] def Op.Withdraws (hashes : String → Prop) : Op → Prop
  | .called | .clock | .listClock | .recordFirst => True
  | .statement (.selectRow _) | .statement (.selectRevoked ..) => True
  | .statement (.deferDelete _) => True
  | .statement (.delete deletion) => hashes deletion.target
  | .statement (.upsertTombstone sidHash ..) => hashes sidHash
  | .kv (.getRecord _) | .kv (.getSeen _) => True
  | _ => False

/-- A deletion spares every other hash. -/
theorem spares_delete {storage : Storage} {deletion : Deletion} (other : sidHash ≠ deletion.target)
    : Spares sidHash storage (storage.delete deletion) := by
  cases deletion with
  | row removed =>
      refine ⟨?_, rfl, rfl, rfl, rfl⟩
      simp only [Storage.delete, Table.find_deleteWhere]
      cases found : storage.rows.find sidHash with
      | none => rfl
      | some row => simp [Option.filter, Table.key_of_find found, show sidHash ≠ removed from other]
  | record removed =>
      refine ⟨rfl, ?_, rfl, rfl, rfl⟩
      simp only [Storage.delete, KvSpace.find_delete]
      exact if_neg other
  | seen removed =>
      refine ⟨rfl, rfl, ?_, rfl, rfl⟩
      simp only [Storage.delete, KvSpace.find_delete]
      exact if_neg other

/-- An operation that withdraws other hashes spares this one, by cases on the operation. -/
theorem spares_of_withdraws {guarantees : Guarantees} {hashes : String → Prop} {op : Op}
    {reply : op.Reply} (withdraws : op.Withdraws hashes) (other : ¬hashes sidHash)
    (executes : exec platform guarantees op before reply after)
    : Spares sidHash before after := by
  cases op with
  | called => obtain ⟨_, rfl⟩ := executes; exact ⟨rfl, rfl, rfl, rfl, rfl⟩
  | clock => obtain ⟨_, rfl⟩ := executes; exact ⟨rfl, rfl, rfl, rfl, rfl⟩
  | listClock => obtain ⟨_, rfl⟩ := executes; exact ⟨rfl, rfl, rfl, rfl, rfl⟩
  | randomToken => contradiction
  | recordFirst => cases executes; exact Spares.refl _
  | statement query =>
      cases query with
      | selectRow => cases executes; exact Spares.refl _
      | selectRevoked => cases executes; exact Spares.refl _
      | deferDelete => cases executes; exact ⟨rfl, rfl, rfl, rfl, rfl⟩
      | delete deletion =>
          cases executes
          exact spares_delete (fun same => other (same ▸ withdraws))
      | upsertTombstone revoked expiresAt revokedAt =>
          cases executes
          refine ⟨rfl, rfl, rfl, ?_, rfl⟩
          have different : sidHash ≠ revoked := fun same => other (same ▸ withdraws)
          simp [Table.find_upsert, different]
      | _ => contradiction
  | kv call =>
      obtain ⟨_, _, rfl, _⟩ := executes
      cases call with
      | getRecord => exact ⟨rfl, rfl, rfl, rfl, rfl⟩
      | getSeen => exact ⟨rfl, rfl, rfl, rfl, rfl⟩
      | _ => contradiction

/-- A task that withdraws other hashes spares this one, by its trace. -/
theorem within_spares {α : Type} {guarantees : Guarantees} {hashes : String → Prop}
    {task : Task α} {answer : α} (within : task.Within (Op.Withdraws hashes)) (other : ¬hashes sidHash)
    (run : Evaluates (exec platform guarantees) task before answer after)
    : Spares sidHash before after := by
  obtain ⟨calls, leads, executes⟩ := run.trace
  have withdraw := within.made leads
  exact executes.relates Spares.refl Spares.trans
    (fun made member _ _ taken => spares_of_withdraws (withdraw made member) other taken)

/-- At an instant every such operation can be served. -/
theorem exists_executes {hashes : String → Prop} {op : Op} (withdraws : op.Withdraws hashes)
    (before : Storage)
    : ∃ reply after, exec platform (stopped time .strong) op before reply after
        ∧ after.kvNow = before.kvNow := by
  cases op with
  | called => exact ⟨time, _, ⟨rfl, rfl⟩, rfl⟩
  | clock => exact ⟨time, _, ⟨rfl, rfl⟩, rfl⟩
  | listClock => exact ⟨time, _, ⟨rfl, rfl⟩, rfl⟩
  | randomToken => contradiction
  | recordFirst => exact ⟨true, _, rfl, rfl⟩
  | statement query =>
      cases query with
      | selectRow => exact ⟨_, _, rfl, rfl⟩
      | selectRevoked => exact ⟨_, _, rfl, rfl⟩
      | deferDelete => exact ⟨_, _, rfl, rfl⟩
      | delete deletion => exact ⟨_, _, rfl, (framed_delete before deletion).kvNow⟩
      | upsertTombstone => exact ⟨_, _, rfl, rfl⟩
      | _ => contradiction
  | kv call =>
      cases call with
      | getRecord sidHash => exact ⟨_, _, ⟨before.kvNow, le_rfl, rfl, rfl⟩, rfl⟩
      | getSeen sidHash => exact ⟨_, _, ⟨before.kvNow, le_rfl, rfl, rfl⟩, rfl⟩
      | _ => contradiction

/-- At an instant a task that only reads and removes can be run to its end, by induction on the
task.
-/
theorem within_exists_run {α : Type} {hashes : String → Prop} {task : Task α}
    (within : task.Within (Op.Withdraws hashes)) (before : Storage)
    : ∃ answer after, Evaluates (exec platform (stopped time .strong)) task before answer after
        ∧ after.kvNow = before.kvNow := by
  induction task generalizing before with
  | pure answer => exact ⟨answer, before, evaluates_pure.mpr ⟨rfl, rfl⟩, rfl⟩
  | call op next ih =>
      obtain ⟨reply, middle, executes, still⟩ := exists_executes within.1 before
      obtain ⟨answer, after, continues, stands⟩ := ih reply (within.2 reply) middle
      exact ⟨answer, after, evaluates_call.mpr ⟨reply, middle, executes, continues⟩,
        stands.trans still⟩

-----------------------------------------------------------------------------------------
-- `get` and `revoke` reach one hash only
-----------------------------------------------------------------------------------------

section Reach

variable {hashes : String → Prop} {revocation : Option RevocationList} {executionCtx : Bool}

theorem withdraws_checkRevoked {userId : String} {createdAt : Millis}
    : (checkRevoked revocation sidHash userId createdAt).Within (Op.Withdraws hashes) := by
  cases revocation <;> simp [checkRevoked, revocationList.isRevoked]

theorem withdraws_settle {deletion : Deletion} (own : hashes deletion.target)
    : (settle executionCtx deletion).Within (Op.Withdraws hashes) := by
  cases executionCtx with
  | false => exact within_perform _ _ |>.mpr own
  | true => exact within_perform _ _ |>.mpr trivial

theorem withdraws_forget (own : hashes sidHash)
    : (kvSessionStore.forget executionCtx sidHash).Within (Op.Withdraws hashes) := by
  refine .perform trivial (fun first => ?_)
  cases first <;> exact (withdraws_settle own).bind (fun _ => withdraws_settle own)

/-- `get` reaches the hash of its id only, by the paths through its code. -/
theorem withdraws_get (own : hashes (sha256Hex platform sid))
    : (store.call platform (.get sid)).Within (Op.Withdraws hashes) := by
  refine .perform trivial (fun _ => Within.bind ?_ (fun _ => trivial))
  have sql (revocation : Option RevocationList) (executionCtx : Bool)
      : (sqlSessionStore.get platform revocation executionCtx sid).Within (Op.Withdraws hashes) := by
    refine .perform trivial (fun found => ?_)
    cases found with
    | none => trivial
    | some row =>
        refine withdraws_checkRevoked.bind (fun revoked => ?_)
        cases revoked with
        | true => trivial
        | false =>
            refine .perform trivial (fun readAt => ?_)
            cases row.expired readAt with
            | true => exact (withdraws_settle own).bind (fun _ => trivial)
            | false => trivial
  cases store with
  | d1 options => exact sql _ _
  | pg options => exact sql _ _
  | kv options =>
      refine Within.bind ?_ (fun read => ?_)
      · refine .perform trivial (fun first => ?_)
        cases first <;> simp
      · obtain ⟨found, seen⟩ := read
        cases found with
        | none => trivial
        | some record =>
            dsimp only
            split
            · trivial
            · refine .perform trivial (fun readAt => ?_)
              cases record.expired seen readAt with
              | true => exact (withdraws_forget own).bind (fun _ => trivial)
              | false =>
                  refine withdraws_checkRevoked.bind (fun revoked => ?_)
                  cases revoked <;> trivial

/-- `revoke` reaches the hash of its id only. -/
theorem withdraws_revoke (own : hashes (sha256Hex platform sid))
    : (store.call platform (.revoke sid)).Within (Op.Withdraws hashes) := by
  refine .perform trivial (fun _ => Within.bind ?_ (fun _ => trivial))
  have sql (revocation : Option RevocationList)
      : (sqlSessionStore.revoke platform revocation sid).Within (Op.Withdraws hashes) := by
    refine Within.bind ?_ (fun _ => within_perform _ _ |>.mpr own)
    cases revocation with
    | none => trivial
    | some list =>
        refine .perform trivial (fun found => ?_)
        cases found with
        | none => trivial
        | some row => simpa [revocationList.revoke] using own
  cases store with
  | d1 options => exact sql _
  | pg options => exact sql _
  | kv options =>
      refine .perform trivial (fun record => Within.bind ?_ (fun _ => withdraws_forget own))
      unfold kvSessionStore.tombstone
      cases options.revocation with
      | none => trivial
      | some list =>
          cases record <;> simpa [kvSessionStore.tombstoneExpiry, revocationList.revoke] using own

end Reach

-----------------------------------------------------------------------------------------
-- What a `get` answers and leaves
-----------------------------------------------------------------------------------------

/-- Asking the list changes nothing and answers whether it says that the session is revoked. -/
theorem checkRevoked_run (store : SessionStore) {userId : String} {createdAt : Millis} {revoked : Bool} {check : List Made}
    (leads : (checkRevoked store.revocation sidHash userId createdAt).Leads check (.pure revoked))
    (executes : Executes (exec platform (stopped time .strong)) { before with now := time } check after)
    : after = { before with now := time }
      ∧ store.revokes before sidHash userId time createdAt = revoked := by
  obtain ⟨same, asked⟩ := checkRevoked_executes leads executes rfl
  refine ⟨same, ?_⟩
  cases list : store.revocation with
  | none =>
      rcases checkRevoked_leads leads with ⟨_, answered, _⟩ | ⟨_, some, _⟩
      · simp [SessionStore.revokes, list, answered]
      · simp [list] at some
  | some options =>
      rw [SessionStore.revokes, list]
      exact asked (by simp [list])

/-- A `get` on SQL has answered what its row gives, and only an expired row has it removed; from
its trace.
-/
theorem sqlGet_run (store : SessionStore) {executionCtx : Bool} {answer : Option Session} {calls : List Made}
    (trace : sqlSessionStore.GetTrace platform store.revocation executionCtx sid calls answer)
    (executes : Executes (exec platform (stopped time .strong)) { before with now := time } calls after)
    : answer = store.servedRow platform time before sid (before.rows.find (sha256Hex platform sid))
      ∧ (Spares (sha256Hex platform sid) before after ∨ answer = none) := by
  cases trace with
  | missing =>
      simp only [Sequence.cons_iff, Sequence.nil_iff, Made.selected] at executes
      obtain ⟨_, selects, rfl⟩ := executes
      simp only [exec, Statement.run, Option.some.injEq, Prod.mk.injEq] at selects
      obtain ⟨stored, rfl⟩ := selects
      exact ⟨by simp [SessionStore.servedRow, stored], .inr rfl⟩
  | @revoked row check checked =>
      simp only [Sequence.cons_iff, Made.selected] at executes
      obtain ⟨_, selects, checks⟩ := executes
      simp only [exec, Statement.run, Option.some.injEq, Prod.mk.injEq] at selects
      obtain ⟨stored, rfl⟩ := selects
      obtain ⟨_, revoked⟩ := checkRevoked_run store checked checks
      exact ⟨by simp [SessionStore.servedRow, stored, revoked], .inr rfl⟩
  | @expired row check readAt checked expired =>
      obtain ⟨_, executes, reads⟩ := Sequence.append_iff.mp executes
      simp only [Sequence.cons_iff, Made.clock, Made.selected] at executes reads
      obtain ⟨_, selects, checks⟩ := executes
      simp only [exec, Statement.run, Option.some.injEq, Prod.mk.injEq] at selects
      obtain ⟨stored, rfl⟩ := selects
      obtain ⟨_, ⟨same, rfl⟩, _⟩ := reads
      cases (same : readAt = time)
      exact ⟨by simp [SessionStore.servedRow, stored, expired], .inr rfl⟩
  | @live row check readAt checked live =>
      obtain ⟨_, executes, reads⟩ := Sequence.append_iff.mp executes
      simp only [Sequence.cons_iff, Sequence.nil_iff, Made.clock, Made.selected] at executes reads
      obtain ⟨_, selects, checks⟩ := executes
      simp only [exec, Statement.run, Option.some.injEq, Prod.mk.injEq] at selects
      obtain ⟨stored, rfl⟩ := selects
      obtain ⟨rfl, unrevoked⟩ := checkRevoked_run store checked checks
      obtain ⟨_, ⟨same, rfl⟩, rfl⟩ := reads
      cases (same : readAt = time)
      exact ⟨by simp [SessionStore.servedRow, stored, live, unrevoked], .inl ⟨rfl, rfl, rfl, rfl, rfl⟩⟩

/-- A `get` on KV has answered what the record and the marker it read give, and only when they give
no session has it removed anything; from its trace.
-/
theorem kvGet_run {options : KvSessionStoreOptions} {answer : Option Session} {calls : List Made}
    (trace : kvSessionStore.GetTrace platform options sid calls answer)
    (executes : Executes (exec platform (stopped time .strong)) { before with now := time } calls after)
    : ∃ recordTime seenTime, before.kvNow ≤ recordTime ∧ before.kvNow ≤ seenTime
        ∧ recordTime ≤ after.kvNow ∧ seenTime ≤ after.kvNow
        ∧ answer = (SessionStore.kv options).servedRecord platform time before sid
            (before.records.read (sha256Hex platform sid) recordTime)
            (before.seen.read (sha256Hex platform sid) seenTime)
        ∧ (Spares (sha256Hex platform sid) before after ∨ answer = none) := by
  have later {start finish : Storage} {calls : List Made}
      (run : Executes (exec platform (stopped time .strong)) start calls finish)
      : start.kvNow ≤ finish.kvNow := by
    exact run.keeps (fun storage => start.kvNow ≤ storage.kvNow)
      (fun _ _ _ _ taken reached => reached.trans (kvNow_le taken)) le_rfl
  cases trace with
  | @missing reads seen read =>
      obtain ⟨recordTime, seenTime, kvTime, recordForward, readRecord, seenForward, readSeen,
        recordEnd, seenEnd, rfl⟩ := readBoth_executes read executes
      refine ⟨recordTime, seenTime, recordForward, seenForward, recordEnd, seenEnd, ?_, .inr rfl⟩
      rw [← (show none = _ from readRecord)]
      rfl
  | @version reads record seen read other =>
      obtain ⟨recordTime, seenTime, kvTime, recordForward, readRecord, seenForward, readSeen,
        recordEnd, seenEnd, rfl⟩ := readBoth_executes read executes
      refine ⟨recordTime, seenTime, recordForward, seenForward, recordEnd, seenEnd, ?_, .inr rfl⟩
      rw [← (show some record = _ from readRecord)]
      simp [SessionStore.servedRecord, other]
  | @expired reads forgets record seen readAt read known expired forgot =>
      obtain ⟨_, readings, rest⟩ := Sequence.append_iff.mp executes
      obtain ⟨recordTime, seenTime, kvTime, recordForward, readRecord, seenForward, readSeen,
        recordEnd, seenEnd, rfl⟩ := readBoth_executes read readings
      obtain ⟨_, ⟨same, rfl⟩, remaining⟩ := Sequence.cons_iff.mp rest
      obtain rfl : time = readAt := same.symm
      refine ⟨recordTime, seenTime, recordForward, seenForward, recordEnd.trans (later remaining),
        seenEnd.trans (later remaining), ?_, .inr rfl⟩
      rw [← (show some record = _ from readRecord), ← (show seen = _ from readSeen)]
      simp [SessionStore.servedRecord, expired]
  | @revoked reads check record seen readAt read known live checked =>
      obtain ⟨_, readings, rest⟩ := Sequence.append_iff.mp executes
      obtain ⟨recordTime, seenTime, kvTime, recordForward, readRecord, seenForward, readSeen,
        recordEnd, seenEnd, rfl⟩ := readBoth_executes read readings
      obtain ⟨_, ⟨same, rfl⟩, remaining⟩ := Sequence.cons_iff.mp rest
      obtain rfl : time = readAt := same.symm
      obtain ⟨rfl, revoked⟩ := checkRevoked_run (.kv options) checked remaining
      refine ⟨recordTime, seenTime, recordForward, seenForward, recordEnd, seenEnd, ?_, .inr rfl⟩
      rw [← (show some record = _ from readRecord), ← (show seen = _ from readSeen)]
      have listed : (SessionStore.kv options).revokes before (sha256Hex platform sid) record.userId
        time record.createdAt = true := revoked
      simp [SessionStore.servedRecord, listed]
  | @live reads check record seen readAt read known live checked =>
      obtain ⟨_, readings, rest⟩ := Sequence.append_iff.mp executes
      obtain ⟨recordTime, seenTime, kvTime, recordForward, readRecord, seenForward, readSeen,
        recordEnd, seenEnd, rfl⟩ := readBoth_executes read readings
      obtain ⟨_, ⟨same, rfl⟩, remaining⟩ := Sequence.cons_iff.mp rest
      obtain rfl : time = readAt := same.symm
      obtain ⟨rfl, revoked⟩ := checkRevoked_run (.kv options) checked remaining
      refine ⟨recordTime, seenTime, recordForward, seenForward, recordEnd, seenEnd, ?_,
        .inl ⟨rfl, rfl, rfl, rfl, rfl⟩⟩
      rw [← (show some record = _ from readRecord), ← (show seen = _ from readSeen)]
      have listed : (SessionStore.kv options).revokes before (sha256Hex platform sid) record.userId
        time record.createdAt = false := revoked
      simp [SessionStore.servedRecord, known, live, listed]

/-- A `get` at an instant answers what is served then, and when it answers a session, that session
is spared.
-/
theorem get_instant {answer : Option Session}
    (serves : Serves platform .strong time (store.call platform (.get sid)) before (.found answer) after)
    (still : after.kvNow = before.kvNow)
    : answer = store.served platform time before.kvNow before sid
      ∧ (Spares (sha256Hex platform sid) before after ∨ answer = none) := by
  obtain ⟨read, middle, ⟨reads, rfl⟩, run⟩ := evaluates_call.mp serves.2
  obtain rfl : time = read := Eq.symm reads
  obtain ⟨calls, leads, executes⟩ := run.trace
  have gets := get_answer leads
  cases store with
  | d1 options => exact sqlGet_run (.d1 options) (sqlSessionStore.get_leads gets) executes
  | pg options => exact sqlGet_run (.pg options) (sqlSessionStore.get_leads gets) executes
  | kv options =>
      obtain ⟨recordTime, seenTime, recordForward, seenForward, recordEnd, seenEnd, same, spares⟩ :=
        kvGet_run (kvSessionStore.get_leads gets) executes
      obtain rfl : recordTime = before.kvNow := le_antisymm (still ▸ recordEnd) recordForward
      obtain rfl : seenTime = before.kvNow := le_antisymm (still ▸ seenEnd) seenForward
      exact ⟨same, spares⟩

/-- At an instant a `get` of a session that is served answers it. -/
theorem exists_get {session : Session} (before : Storage) (read : before.now ≤ time)
    (live : store.served platform time before.kvNow before sid = some session)
    : ∃ after, Serves platform .strong time (store.call platform (.get sid)) before
          (.found (some session)) after
        ∧ after.kvNow = before.kvNow := by
  have within : (store.call platform (.get sid)).Within (Op.Withdraws fun _ => True) :=
    withdraws_get trivial
  obtain ⟨answer, after, run, still⟩ := within_exists_run within before
  obtain ⟨found, rfl⟩ := get_answers ⟨read, run⟩
  obtain ⟨same, _⟩ := get_instant ⟨read, run⟩ still
  exact ⟨after, ⟨read, same.trans live ▸ run⟩, still⟩

-----------------------------------------------------------------------------------------
-- What a `revoke` leaves
-----------------------------------------------------------------------------------------

/-- At an instant a `revoke` can be served. -/
theorem exists_revoke (sid : String) (read : before.now ≤ time)
    : ∃ after, Serves platform .strong time (store.call platform (.revoke sid)) before .done after
        ∧ after.kvNow = before.kvNow := by
  have within : (store.call platform (.revoke sid)).Within (Op.Withdraws fun _ => True) :=
    withdraws_revoke trivial
  obtain ⟨answer, after, run, still⟩ := within_exists_run within before
  obtain ⟨_, calls, _, rest⟩ := evaluates_call.mp run
  have answers : Evaluates _ (store.answer platform (.revoke sid)) calls answer after := rest
  obtain ⟨_, _, _, done⟩ := evaluates_bind.mp answers
  obtain ⟨rfl, _⟩ := evaluates_pure.mp done
  exact ⟨after, ⟨read, run⟩, still⟩

/-- A `revoke` spares every other hash. -/
theorem revoke_spares {answer : Answer} (other : sidHash ≠ sha256Hex platform sid)
    (serves : Serves platform .strong time (store.call platform (.revoke sid)) before answer after)
    : Spares sidHash before after := by
  have within : (store.call platform (.revoke sid)).Within
      (Op.Withdraws (fun hash => hash = sha256Hex platform sid)) := withdraws_revoke rfl
  exact within_spares within other serves.2

/-- After a `revoke` no session is served under the hash, whatever id it is asked for by. -/
theorem revoke_served {answer : Answer} {asked : String}
    (same : sha256Hex platform asked = sha256Hex platform sid)
    (serves : Serves platform .strong time (store.call platform (.revoke sid)) before answer after)
    : store.served platform time kvTime after asked = none := by
  obtain ⟨read, middle, ⟨reads, rfl⟩, run⟩ := evaluates_call.mp serves.2
  obtain ⟨calls, leads, executes⟩ := run.trace
  have revokes := revoke_answer leads
  have sql {revocation : Option RevocationList} (sql : store.usesKv = false)
      (leads : (sqlSessionStore.revoke platform revocation sid).Leads calls (.pure ()))
      : store.served platform time kvTime after asked = none := by
    obtain ⟨tombstones, _, rfl⟩ := sqlSessionStore.revoke_leads leads
    obtain ⟨before, _, deletes⟩ := Sequence.append_iff.mp executes
    simp only [Sequence.cons_iff, Sequence.nil_iff, Made.did] at deletes
    obtain ⟨_, removes, rfl⟩ := deletes
    cases removes
    have gone : (before.delete (.row (sha256Hex platform sid))).rows.find (sha256Hex platform asked)
        = none := by
      simp only [Storage.delete, Table.find_deleteWhere]
      cases found : before.rows.find (sha256Hex platform asked) with
      | none => rfl
      | some row => simp [Option.filter, Table.key_of_find found, same]
    simp [SessionStore.served, sql, gone, SessionStore.servedRow]
  cases store with
  | d1 options => exact sql rfl revokes
  | pg options => exact sql rfl revokes
  | kv options =>
      obtain ⟨record, tombstones, forgets, _, forgot, rfl⟩ := kvSessionStore.revoke_leads revokes
      obtain ⟨before, _, deletes⟩ := Sequence.append_iff.mp executes
      have gone : after.records.current.find (sha256Hex platform asked) = none := by
        obtain ⟨first, rfl⟩ := kvSessionStore.forget_leads forgot
        cases first <;>
          · simp only [Bool.false_eq_true, if_false, if_true, Sequence.cons_iff, Sequence.nil_iff,
              Made.settled] at deletes
            obtain ⟨_, started, _, firstDeleted, _, secondDeleted, rfl⟩ := deletes
            cases started
            cases firstDeleted
            cases secondDeleted
            simp [Storage.delete, same]
      simp [SessionStore.served, SessionStore.usesKv, KvSpace.read, gone, SessionStore.servedRecord]

end WorkersAuth.Stores

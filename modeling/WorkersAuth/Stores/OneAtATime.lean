import WorkersAuth.Stores.Quiet

/-! Calls served one at a time.
The clock stands still while a call is served and never goes back between two calls. The
effects a call can have are listed once, and what a `get` has found when it answers with a
session; facts about histories of calls rest on these lists.
-/

namespace WorkersAuth.Stores

open Atomic Tables Program

variable {platform : Platform} {consistency : Consistency} {time : Millis}
  {before after : Storage} {sidHash : String}

/-- The clock stands still. -/
def stopped (time : Millis) (consistency : Consistency) : Guarantees where
  clock _ read := read = time
  consistency := consistency

/-- A task is served alone, at a moment no earlier than any before. -/
def Serves {α : Type} (platform : Platform) (consistency : Consistency) (time : Millis) (task : Task α)
    (before : Storage) (answer : α) (after : Storage)
    : Prop :=
  before.now ≤ time ∧ Evaluates (exec platform (stopped time consistency)) task before answer after

-----------------------------------------------------------------------------------------
-- Quiet calls only remove
-----------------------------------------------------------------------------------------

/-- Nothing has been stored: what is there now was there before. -/
structure Wanes (before after : Storage) : Prop where
  rows : ∀ sidHash row, after.rows.find sidHash = some row → before.rows.find sidHash = some row
  record : ∀ sidHash pair,
    after.records.current.find sidHash = some pair → before.records.current.find sidHash = some pair
  seen : ∀ sidHash pair,
    after.seen.current.find sidHash = some pair → before.seen.current.find sidHash = some pair
  recordsWritten : after.records.written = before.records.written
  seenWritten : after.seen.written = before.seen.written
  drawn : after.drawn = before.drawn
  kvNow : before.kvNow ≤ after.kvNow

theorem Wanes.refl (storage : Storage) : Wanes storage storage :=
  ⟨fun _ _ => id, fun _ _ => id, fun _ _ => id, rfl, rfl, rfl, le_rfl⟩

theorem Wanes.trans {first second third : Storage} (one : Wanes first second)
    (two : Wanes second third)
    : Wanes first third where
  rows sidHash row stored := one.rows sidHash row (two.rows sidHash row stored)
  record sidHash pair stored := one.record sidHash pair (two.record sidHash pair stored)
  seen sidHash pair stored := one.seen sidHash pair (two.seen sidHash pair stored)
  recordsWritten := two.recordsWritten.trans one.recordsWritten
  seenWritten := two.seenWritten.trans one.seenWritten
  drawn := two.drawn.trans one.drawn
  kvNow := one.kvNow.trans two.kvNow

/-- A statement writes nothing to KV, by cases on its deletion. -/
theorem Framed.written (framed : Framed before after)
    : after.records.written = before.records.written ∧ after.seen.written = before.seen.written := by
  obtain ⟨deletion, records, seen⟩ := framed.kv
  rw [records, seen]
  cases deletion <;> exact ⟨rfl, rfl⟩

/-- Of the operations only the two puts write to KV. -/
theorem written_eq {guarantees : Guarantees} {op : Op} {reply : op.Reply} (quiet : op.quiet = true)
    (executes : exec platform guarantees op before reply after)
    : after.records.written = before.records.written ∧ after.seen.written = before.seen.written := by
  cases op with
  | called => obtain ⟨_, rfl⟩ := executes; exact ⟨rfl, rfl⟩
  | clock => obtain ⟨_, rfl⟩ := executes; exact ⟨rfl, rfl⟩
  | listClock => obtain ⟨_, rfl⟩ := executes; exact ⟨rfl, rfl⟩
  | randomToken => obtain ⟨_, rfl⟩ := executes; exact ⟨rfl, rfl⟩
  | recordFirst => cases executes; exact ⟨rfl, rfl⟩
  | statement query => exact (Statement.framed executes).written
  | kv call =>
      obtain ⟨time, _, rfl, _⟩ := executes
      cases call with
      | getRecord key => exact ⟨rfl, rfl⟩
      | getSeen key => exact ⟨rfl, rfl⟩
      | putRecord key record ttl => contradiction
      | putSeen key marker ttl => contradiction

/-- A quiet operation stores nothing. -/
theorem wanes_of_quiet {guarantees : Guarantees} {op : Op} {reply : op.Reply} (quiet : op.quiet = true)
    (executes : exec platform guarantees op before reply after)
    : Wanes before after where
  rows sidHash row stored := by
    cases rowMove executes stored with
    | kept old => exact old
    | inserted same free => contradiction
    | touched old live changed => contradiction
  record sidHash pair stored := by
    rcases recordMove executes stored with old | ⟨record, ttl, rfl, _⟩
    · exact old
    · contradiction
  seen sidHash pair stored := by
    rcases seenMove executes stored with old | ⟨marker, ttl, rfl, _⟩
    · exact old
    · contradiction
  recordsWritten := (written_eq quiet executes).1
  seenWritten := (written_eq quiet executes).2
  drawn := by
    rcases drawn_eq executes with same | ⟨_, call, _⟩
    · exact same
    · cases call
      contradiction
  kvNow := kvNow_le executes

/-- While the clock stands still, the last reading stays what it is, by cases on the operation. -/
theorem now_stopped {op : Op} {reply : op.Reply}
    (executes : exec platform (stopped time consistency) op before reply after)
    (read : before.now = time)
    : after.now = time := by
  cases op with
  | called => obtain ⟨reads, rfl⟩ := executes; exact reads
  | clock => obtain ⟨reads, rfl⟩ := executes; exact reads
  | listClock => obtain ⟨reads, rfl⟩ := executes; exact reads
  | randomToken => obtain ⟨_, rfl⟩ := executes; exact read
  | recordFirst => cases executes; exact read
  | statement query => exact (Statement.framed executes).now.trans read
  | kv call =>
      obtain ⟨_, _, rfl, _⟩ := executes
      cases call <;> exact read

-----------------------------------------------------------------------------------------
-- The effects of a call
-----------------------------------------------------------------------------------------

/-- Whether sessions are kept in KV, not in rows. -/
def SessionStore.usesKv : SessionStore → Bool
  | .d1 _ => false
  | .pg _ => false
  | .kv _ => true

/-- What a call that is not quiet leaves, and that a quiet one stores nothing. -/
inductive Effect (platform : Platform) (store : SessionStore) (time : Millis) (before : Storage)
    : Request → Answer → Storage → Prop
  | refused {input : NewSession} {error : String}
    : Effect platform store time before (.create input) (.created (.error error))
        { before with now := time }
  | createdRow {input : NewSession} {sid : String} {rows : Table String SessionRow SessionRow.sidHash}
    (sql : store.usesKv = false) (unused : before.Unused (sha256Hex platform sid))
    (inserted : before.rows.insert (newRow (sha256Hex platform sid) input time) = some rows)
    : Effect platform store time before (.create input)
        (.created (.ok (rowToSession (newRow (sha256Hex platform sid) input time) sid)))
        { before with now := time, drawn := sha256Hex platform sid :: before.drawn, rows }
  | createdRecord {input : NewSession} {sid : String} {kvTime : Millis} {ttl : ℤ}
    (usesKv : store.usesKv = true) (unused : before.Unused (sha256Hex platform sid))
    (forward : before.kvNow ≤ kvTime)
    : Effect platform store time before (.create input)
        (.created (.ok ((newRecord input time).toSession none sid)))
        {
          before with
          now := time
          kvNow := kvTime
          drawn := sha256Hex platform sid :: before.drawn
          records := before.records.put
            ⟨sha256Hex platform sid, newRecord input time, kvTime + ttl * sec⟩
        }
  | touchedRow {isolate : Nat} {sid : String} {idleExpiresAt : Millis} (sql : store.usesKv = false)
    : Effect platform store time before (.touch isolate sid idleExpiresAt) .done
        {
          before with
          now := time
          rows := before.rows.updateWhere
            (fun row => row.sidHash = sha256Hex platform sid && time < row.idleExpiresAt
              && time < row.absoluteExpiresAt)
            (fun row => row.touched time idleExpiresAt)
        }
  | unmarked {isolate : Nat} {sid : String} {idleExpiresAt : Millis} {guards : Nat → TouchGuard}
    (usesKv : store.usesKv = true)
    : Effect platform store time before (.touch isolate sid idleExpiresAt) .done
        { before with now := time, guards }
  | marked {isolate : Nat} {sid : String} {idleExpiresAt kvTime : Millis} {ttl : ℤ}
    {guards : Nat → TouchGuard} {options : KvSessionStoreOptions} (same : store = .kv options)
    (early : time < idleExpiresAt)
    (admitted : ((before.guards isolate).allows (sha256Hex platform sid) time
      (options.touchThrottleSec * sec)).1 = true)
    (forward : before.kvNow ≤ kvTime)
    : Effect platform store time before (.touch isolate sid idleExpiresAt) .done
        {
          before with
          now := time
          kvNow := kvTime
          guards
          seen := before.seen.put
            ⟨sha256Hex platform sid, { e := idleExpiresAt, s := time }, kvTime + ttl * sec⟩
        }
  | quiet {request : Request} {answer : Answer} {after : Storage} (quiet : request.quiet = true)
    (wanes : Wanes before after) (now : after.now = time)
    : Effect platform store time before request answer after

variable {store : SessionStore} {request : Request} {answer : Answer}

/-- A quiet call, from its operations. -/
theorem quiet_effect (quiet : request.quiet = true)
    (run : Evaluates (exec platform (stopped time consistency)) (store.call platform request)
      before answer after)
    : Effect platform store time before request answer after := by
  obtain ⟨read, middle, noted, run⟩ := evaluates_call.mp run
  obtain ⟨reads, rfl⟩ := noted
  cases (reads : read = time)
  obtain ⟨calls, leads, executes⟩ := run.trace
  have quietly : Quiet (store.answer platform request) := quiet_answer quiet
  have quiets := quietly.made leads
  refine .quiet quiet ?_ ?_
  · have wanes := executes.relates Wanes.refl Wanes.trans
      (fun made member before after taken => wanes_of_quiet (quiets made member) taken)
    exact ⟨wanes.rows, wanes.record, wanes.seen, wanes.recordsWritten, wanes.seenWritten,
      wanes.drawn, wanes.kvNow⟩
  · exact executes.keeps (fun storage => storage.now = time)
      (fun made member before after taken read => now_stopped taken read) rfl

/-- A `create` on SQL, from its trace. -/
theorem sqlCreate_effect {input : NewSession} {result : Except String Session} {calls : List Made}
    (sql : store.usesKv = false)
    (trace : sqlSessionStore.CreateTrace platform input calls result)
    (executes : Executes (exec platform (stopped time consistency)) { before with now := time } calls after)
    : Effect platform store time before (.create input) (.created result) after := by
  cases trace with
  | refused bad =>
      cases Sequence.nil_iff.mp executes
      exact .refused
  | @created readAt sid good =>
      simp only [Sequence.cons_iff, Sequence.nil_iff, Made.clock, Made.drew, Made.did] at executes
      obtain ⟨_, ⟨reads, rfl⟩, _, ⟨unused, rfl⟩, _, inserts, rfl⟩ := executes
      cases (reads : readAt = time)
      obtain ⟨rows, inserted, same⟩ := Option.map_eq_some_iff.mp inserts
      cases same
      exact .createdRow sql unused inserted

/-- A `create` on KV, from its trace. -/
theorem kvCreate_effect {input : NewSession} {result : Except String Session} {calls : List Made}
    (usesKv : store.usesKv = true)
    (trace : kvSessionStore.CreateTrace platform input calls result)
    (executes : Executes (exec platform (stopped time consistency)) { before with now := time } calls after)
    : Effect platform store time before (.create input) (.created result) after := by
  cases trace with
  | refused bad =>
      cases Sequence.nil_iff.mp executes
      exact .refused
  | @created readAt sid good =>
      simp only [Sequence.cons_iff, Sequence.nil_iff, Made.clock, Made.drew] at executes
      obtain ⟨_, ⟨reads, rfl⟩, _, ⟨unused, rfl⟩, _, ⟨kvTime, forward, rfl, _⟩, rfl⟩ := executes
      cases (reads : readAt = time)
      exact .createdRecord usesKv unused forward

/-- A `touch` on SQL, from its trace. -/
theorem sqlTouch_effect {isolate : Nat} {sid : String} {idleExpiresAt : Millis} {calls : List Made}
    (sql : store.usesKv = false)
    (leads : (sqlSessionStore.touch platform sid idleExpiresAt).Leads calls (.pure ()))
    (executes : Executes (exec platform (stopped time consistency)) { before with now := time } calls after)
    : Effect platform store time before (.touch isolate sid idleExpiresAt) .done after := by
  obtain ⟨readAt, rfl⟩ := sqlSessionStore.touch_leads.mp leads
  simp only [Sequence.cons_iff, Sequence.nil_iff, Made.clock, Made.did] at executes
  obtain ⟨_, ⟨reads, rfl⟩, _, updates, rfl⟩ := executes
  cases (reads : readAt = time)
  cases updates
  exact .touchedRow sql

/-- A `touch` on KV, from its trace. -/
theorem kvTouch_effect {options : KvSessionStoreOptions} {isolate : Nat} {sid : String}
    {idleExpiresAt : Millis} {calls : List Made}
    (trace : kvSessionStore.TouchTrace platform options isolate sid idleExpiresAt calls)
    (executes : Executes (exec platform (stopped time consistency)) { before with now := time } calls after)
    : Effect platform (.kv options) time before (.touch isolate sid idleExpiresAt) .done after := by
  cases trace with
  | @late readAt late =>
      simp only [Sequence.cons_iff, Sequence.nil_iff, Made.clock] at executes
      obtain ⟨_, ⟨reads, rfl⟩, rfl⟩ := executes
      cases (reads : readAt = time)
      exact .unmarked rfl
  | @throttled readAt early =>
      simp only [Sequence.cons_iff, Sequence.nil_iff, Made.clock, Made.did] at executes
      obtain ⟨_, ⟨reads, rfl⟩, _, admits, rfl⟩ := executes
      cases (reads : readAt = time)
      simp only [exec, Statement.run, Option.some.injEq, Prod.mk.injEq] at admits
      obtain ⟨_, rfl⟩ := admits
      exact .unmarked rfl
  | @written readAt early =>
      simp only [Sequence.cons_iff, Sequence.nil_iff, Made.clock, Made.did] at executes
      obtain ⟨_, ⟨reads, rfl⟩, _, admits, _, ⟨kvTime, forward, rfl, _⟩, rfl⟩ := executes
      cases (reads : readAt = time)
      simp only [exec, Statement.run, Option.some.injEq, Prod.mk.injEq] at admits
      obtain ⟨admitted, rfl⟩ := admits
      exact .marked rfl early admitted forward

/-- Every call served alone has one of the effects, by cases on the request and the store. -/
theorem serves_effect (serves : Serves platform consistency time (store.call platform request) before answer after)
    : Effect platform store time before request answer after := by
  by_cases quiet : request.quiet = true
  · exact quiet_effect quiet serves.2
  obtain ⟨read, middle, noted, run⟩ := evaluates_call.mp serves.2
  obtain ⟨reads, rfl⟩ := noted
  cases (reads : read = time)
  obtain ⟨calls, leads, executes⟩ := run.trace
  cases request with
  | create input =>
      obtain ⟨result, rfl, creates⟩ := leads_of_result leads
      cases store with
      | d1 options => exact sqlCreate_effect rfl (sqlSessionStore.create_leads creates) executes
      | pg options => exact sqlCreate_effect rfl (sqlSessionStore.create_leads creates) executes
      | kv options => exact kvCreate_effect rfl (kvSessionStore.create_leads creates) executes
  | touch isolate sid idleExpiresAt =>
      obtain ⟨_, rfl, touches⟩ := leads_of_result leads
      cases store with
      | d1 options => exact sqlTouch_effect rfl touches executes
      | pg options => exact sqlTouch_effect rfl touches executes
      | kv options => exact kvTouch_effect (kvSessionStore.touch_leads touches) executes
  | _ => exact absurd rfl quiet

-----------------------------------------------------------------------------------------
-- What a `get` has found
-----------------------------------------------------------------------------------------

/-- What `isRevoked` answers. -/
def Storage.revokes (storage : Storage) (sidHash userId : String) (readAt createdAt : Millis) : Bool :=
  (storage.tombstones.find sidHash).any (fun tombstone => readAt < tombstone.expiresAt)
  || (storage.userMarkers.find userId).any (fun marker => createdAt < marker.revokedBefore)

/-- Asking the list, when there is one, changes nothing. -/
theorem checkRevoked_executes {revocation : Option RevocationList} {userId : String}
    {createdAt : Millis} {revoked : Bool} {check : List Made}
    (leads : (checkRevoked revocation sidHash userId createdAt).Leads check (.pure revoked))
    (executes : Executes (exec platform (stopped time consistency)) before check after)
    (read : before.now = time)
    : after = before
      ∧ (revocation.isSome = true → before.revokes sidHash userId time createdAt = revoked) := by
  rcases checkRevoked_leads leads with ⟨rfl, rfl, rfl⟩ | ⟨readAt, _, rfl⟩
  · exact ⟨Sequence.nil_iff.mp executes, by simp⟩
  · simp only [Sequence.cons_iff, Sequence.nil_iff, Made.did] at executes
    obtain ⟨_, ⟨reads, rfl⟩, _, asked, rfl⟩ := executes
    cases (reads : readAt = time)
    simp only [exec, Statement.run, Option.some.injEq, Prod.mk.injEq] at asked
    obtain ⟨same, rfl⟩ := asked
    subst read
    exact ⟨rfl, fun _ => same⟩

/-- The row, or the record and the marker, behind a session that is served. -/
inductive Found (platform : Platform) (consistency : Consistency) (store : SessionStore) (time : Millis)
    (before : Storage) (sid : String)
    : Session → Prop
  | row {row : SessionRow} (sql : store.usesKv = false)
    (stored : before.rows.find (sha256Hex platform sid) = some row) (live : row.expired time = false)
    (unrevoked : store.revocation.isSome = true →
      before.revokes (sha256Hex platform sid) row.userId time row.createdAt = false)
    : Found platform consistency store time before sid (rowToSession row sid)
  | record {record : StoredSession} {seen : Option SeenMarker} {recordTime seenTime : Millis}
    (usesKv : store.usesKv = true) (recordForward : before.kvNow ≤ recordTime)
    (read : before.records.MayRead (sha256Hex platform sid) recordTime consistency (some record))
    (seenForward : before.kvNow ≤ seenTime)
    (readSeen : before.seen.MayRead (sha256Hex platform sid) seenTime consistency seen)
    (live : record.expired seen time = false)
    (unrevoked : store.revocation.isSome = true →
      before.revokes (sha256Hex platform sid) record.userId time record.createdAt = false)
    : Found platform consistency store time before sid (record.toSession seen sid)

/-- A `get` on SQL that answers with a session, from its trace. -/
theorem sqlGet_found {revocation : Option RevocationList} {executionCtx : Bool} {sid : String}
    {session : Session} {calls : List Made} (sql : store.usesKv = false)
    (list : store.revocation = revocation)
    (trace : sqlSessionStore.GetTrace platform revocation executionCtx sid calls (some session))
    (executes : Executes (exec platform (stopped time consistency)) { before with now := time } calls after)
    : Found platform consistency store time before sid session := by
  cases trace with
  | @live row check readAt checked live =>
      obtain ⟨_, executes, reads⟩ := Sequence.append_iff.mp executes
      simp only [Sequence.cons_iff, Sequence.nil_iff, Made.clock, Made.selected] at executes reads
      obtain ⟨_, selects, checks⟩ := executes
      simp only [exec, Statement.run, Option.some.injEq, Prod.mk.injEq] at selects
      obtain ⟨stored, rfl⟩ := selects
      obtain ⟨rfl, unrevoked⟩ := checkRevoked_executes checked checks rfl
      obtain ⟨_, ⟨same, rfl⟩, rfl⟩ := reads
      cases (same : readAt = time)
      exact .row sql stored live (list ▸ unrevoked)

/-- Both reads see the storage as it was, and change nothing but KV's own time. -/
theorem readBoth_executes {record : Option StoredSession} {seen : Option SeenMarker} {reads : List Made}
    (leads : (kvSessionStore.readBoth sidHash).Leads reads (.pure (record, seen)))
    (executes : Executes (exec platform (stopped time consistency)) before reads after)
    : ∃ recordTime seenTime kvTime, before.kvNow ≤ recordTime
        ∧ before.records.MayRead sidHash recordTime consistency record
        ∧ before.kvNow ≤ seenTime ∧ before.seen.MayRead sidHash seenTime consistency seen
        ∧ recordTime ≤ kvTime ∧ seenTime ≤ kvTime ∧ after = { before with kvNow := kvTime } := by
  obtain ⟨first, rfl⟩ := kvSessionStore.readBoth_leads leads
  cases first with
  | true =>
      simp only [if_true, Sequence.cons_iff, Sequence.nil_iff, Made.gotRecord, Made.gotSeen] at executes
      obtain ⟨_, rfl, _, ⟨recordTime, forward, rfl, read⟩, _, ⟨seenTime, later, rfl, readSeen⟩, rfl⟩ :=
        executes
      exact ⟨recordTime, seenTime, seenTime, forward, read, forward.trans later, readSeen, later, le_rfl, rfl⟩
  | false =>
      simp only [Bool.false_eq_true, if_false, Sequence.cons_iff, Sequence.nil_iff, Made.gotRecord,
        Made.gotSeen] at executes
      obtain ⟨_, rfl, _, ⟨seenTime, forward, rfl, readSeen⟩, _, ⟨recordTime, later, rfl, read⟩, rfl⟩ :=
        executes
      exact ⟨recordTime, seenTime, recordTime, forward.trans later, read, forward, readSeen, le_rfl, later, rfl⟩

/-- A `get` on KV that answers with a session, from its trace. -/
theorem kvGet_found {options : KvSessionStoreOptions} {sid : String} {session : Session}
    {calls : List Made} (trace : kvSessionStore.GetTrace platform options sid calls (some session))
    (executes : Executes (exec platform (stopped time consistency)) { before with now := time } calls after)
    : Found platform consistency (.kv options) time before sid session := by
  cases trace with
  | @live reads check record seen readAt read known live checked =>
      obtain ⟨_, executes, rest⟩ := Sequence.append_iff.mp executes
      obtain ⟨recordTime, seenTime, kvTime, recordForward, readRecord, seenForward, readSeen, _, _, rfl⟩ :=
        readBoth_executes read executes
      obtain ⟨_, ⟨same, rfl⟩, checks⟩ := Sequence.cons_iff.mp rest
      cases (same : readAt = time)
      obtain ⟨_, unrevoked⟩ := checkRevoked_executes checked checks rfl
      exact .record rfl recordForward readRecord seenForward readSeen live unrevoked

/-- What a `get` that was served alone has found. -/
theorem get_found {sid : String} {session : Session}
    (serves : Serves platform consistency time (store.call platform (.get sid)) before
      (.found (some session)) after)
    : Found platform consistency store time before sid session := by
  obtain ⟨read, middle, noted, run⟩ := evaluates_call.mp serves.2
  obtain ⟨reads, rfl⟩ := noted
  cases (reads : read = time)
  obtain ⟨calls, leads, executes⟩ := run.trace
  have gets := get_answer leads
  cases store with
  | d1 options => exact sqlGet_found rfl rfl (sqlSessionStore.get_leads gets) executes
  | pg options => exact sqlGet_found rfl rfl (sqlSessionStore.get_leads gets) executes
  | kv options => exact kvGet_found (kvSessionStore.get_leads gets) executes

-----------------------------------------------------------------------------------------
-- What is stored belongs to ids that were drawn
-----------------------------------------------------------------------------------------

/-- Sessions are stored under drawn ids only, and what KV has now it was once given. -/
structure Storage.Accounted (storage : Storage) : Prop where
  rows : ∀ sidHash row, storage.rows.find sidHash = some row → sidHash ∈ storage.drawn
  records : ∀ pair ∈ storage.records.written, pair.key ∈ storage.drawn
  record : ∀ sidHash pair,
    storage.records.current.find sidHash = some pair → pair ∈ storage.records.written
  seen : ∀ sidHash pair, storage.seen.current.find sidHash = some pair → pair ∈ storage.seen.written

/-- Everything is accounted for while nothing is stored. -/
theorem accounted_empty (now : Millis) : (Storage.empty now).Accounted :=
  ⟨by simp [Storage.empty], by simp [Storage.empty, KvSpace.empty],
    by simp [Storage.empty, KvSpace.empty], by simp [Storage.empty, KvSpace.empty]⟩

/-- A version KV has just been given is among those written. -/
theorem KvSpace.mem_written_put {α : Type} {space : KvSpace α} {pair found : KvPair α}
    (written : ∀ sidHash pair, space.current.find sidHash = some pair → pair ∈ space.written)
    (stored : (space.put pair).current.find sidHash = some found)
    : found ∈ (space.put pair).written := by
  rw [find_put] at stored
  split at stored
  · cases stored
    exact List.mem_cons_self
  · exact List.mem_cons_of_mem _ (written _ _ stored)

/-- Everything stays accounted for, by cases on the effect. -/
theorem Effect.accounted (effect : Effect platform store time before request answer after)
    (accounted : before.Accounted)
    : after.Accounted := by
  cases effect with
  | refused => exact ⟨accounted.rows, accounted.records, accounted.record, accounted.seen⟩
  | @createdRow input sid rows sql unused inserted =>
      refine ⟨fun sidHash row stored => ?_, fun pair member => ?_, accounted.record, accounted.seen⟩
      · simp only [Table.find_insert inserted] at stored
        split at stored
        · next same => exact same ▸ List.mem_cons_self
        · exact List.mem_cons_of_mem _ (accounted.rows _ _ stored)
      · exact List.mem_cons_of_mem _ (accounted.records pair member)
  | @createdRecord input sid kvTime ttl usesKv unused forward =>
      refine ⟨fun sidHash row stored => ?_, fun pair member => ?_, fun sidHash pair stored => ?_,
        accounted.seen⟩
      · exact List.mem_cons_of_mem _ (accounted.rows _ _ stored)
      · rcases List.mem_cons.mp member with rfl | old
        · exact List.mem_cons_self
        · exact List.mem_cons_of_mem _ (accounted.records pair old)
      · exact KvSpace.mem_written_put accounted.record stored
  | touchedRow sql =>
      refine ⟨fun sidHash row stored => ?_, accounted.records, accounted.record, accounted.seen⟩
      simp only [Table.find_updateWhere, Option.map_eq_some_iff] at stored
      obtain ⟨old, found, _⟩ := stored
      exact accounted.rows _ _ found
  | unmarked usesKv => exact ⟨accounted.rows, accounted.records, accounted.record, accounted.seen⟩
  | marked same early admitted forward =>
      refine ⟨accounted.rows, accounted.records, accounted.record, fun sidHash pair stored => ?_⟩
      exact KvSpace.mem_written_put accounted.seen stored
  | quiet quiet wanes now =>
      refine ⟨fun sidHash row stored => ?_, fun pair member => ?_, fun sidHash pair stored => ?_,
        fun sidHash pair stored => ?_⟩
      · exact wanes.drawn ▸ accounted.rows _ _ (wanes.rows _ _ stored)
      · exact wanes.drawn ▸ accounted.records pair (wanes.recordsWritten ▸ member)
      · exact wanes.recordsWritten ▸ accounted.record _ _ (wanes.record _ _ stored)
      · exact wanes.seenWritten ▸ accounted.seen _ _ (wanes.seen _ _ stored)

/-- Whatever the consistency, KV answers with versions it was given. -/
theorem KvSpace.MayRead.written {α : Type} {space : KvSpace α} {key : String} {value : α}
    (read : space.MayRead key time consistency (some value))
    (written : ∀ sidHash pair, space.current.find sidHash = some pair → pair ∈ space.written)
    : ∃ pair ∈ space.written, pair.key = key ∧ pair.value = value := by
  cases consistency with
  | strong =>
      obtain ⟨pair, found, _, same⟩ := KvSpace.read_eq_some.mp (Eq.symm read)
      exact ⟨pair, written key pair found, Table.key_of_find found, same⟩
  | eventual =>
      rcases read with none | ⟨pair, member, same, value⟩
      · contradiction
      · cases value
        exact ⟨pair, member, same, rfl⟩

-----------------------------------------------------------------------------------------
-- Which session is stored under an id
-----------------------------------------------------------------------------------------

/-- How a session was created: in which kind of store, from what, and when. -/
structure Creation where
  usesKv : Bool
  input : NewSession
  createdAt : Millis

/-- `at + input.absoluteTtlSec * 1000`. -/
def Creation.absoluteExpiresAt (creation : Creation) : Millis :=
  creation.createdAt + creation.input.absoluteTtlSec * sec

/-- Whatever is stored under a hash is the session so created. -/
structure Creation.Owns (creation : Creation) (sidHash : String) (storage : Storage) : Prop where
  drawn : sidHash ∈ storage.drawn
  row : ∀ row, storage.rows.find sidHash = some row →
    creation.usesKv = false ∧ row.userId = creation.input.userId
      ∧ row.createdAt = creation.createdAt ∧ row.absoluteExpiresAt = creation.absoluteExpiresAt
  record : ∀ pair ∈ storage.records.written, pair.key = sidHash →
    creation.usesKv = true ∧ pair.value = newRecord creation.input creation.createdAt

variable {creation : Creation}

/-- A created session owns its id from then on, as nothing else was stored under it. -/
theorem Effect.creates {input : NewSession} {session : Session}
    (effect : Effect platform store time before (.create input) (.created (.ok session)) after)
    (accounted : before.Accounted)
    : (⟨store.usesKv, input, time⟩ : Creation).Owns (sha256Hex platform session.sid) after
      ∧ before.Unused (sha256Hex platform session.sid) := by
  cases effect with
  | @createdRow _ sid rows sql unused inserted =>
      refine ⟨⟨List.mem_cons_self, fun row stored => ?_, fun pair member same => ?_⟩, unused⟩
      · have own : row = newRow (sha256Hex platform sid) input time := by
          simpa [rowToSession, Table.find_insert inserted, newRow] using stored.symm
        subst own
        exact ⟨sql, rfl, rfl, rfl⟩
      · exact absurd (same ▸ accounted.records pair member) unused.1
  | @createdRecord _ sid kvTime ttl usesKv unused forward =>
      refine ⟨⟨List.mem_cons_self, fun row stored => ?_, fun pair member same => ?_⟩, unused⟩
      · exact absurd (accounted.rows _ _ stored) unused.1
      · rcases List.mem_cons.mp member with rfl | old
        · exact ⟨usesKv, rfl⟩
        · exact absurd (same ▸ accounted.records pair old) unused.1
  | quiet quiet wanes now => contradiction

/-- The session `create` answers with is the one it was asked for. -/
theorem Effect.created_session {input : NewSession} {session : Session}
    (effect : Effect platform store time before (.create input) (.created (.ok session)) after)
    : session.userId = input.userId ∧ session.createdAt = time
      ∧ session.absoluteExpiresAt = time + input.absoluteTtlSec * sec := by
  cases effect with
  | createdRow sql unused inserted => exact ⟨rfl, rfl, rfl⟩
  | createdRecord usesKv unused forward => exact ⟨rfl, rfl, rfl⟩
  | quiet quiet wanes now => contradiction

/-- An id stays with its session, by cases on the effect. -/
theorem Effect.owns (effect : Effect platform store time before request answer after)
    (owns : creation.Owns sidHash before)
    : creation.Owns sidHash after := by
  cases effect with
  | refused => exact ⟨owns.drawn, owns.row, owns.record⟩
  | @createdRow input sid rows sql unused inserted =>
      refine ⟨List.mem_cons_of_mem _ owns.drawn, fun row stored => ?_, owns.record⟩
      simp only [Table.find_insert inserted] at stored
      split at stored
      · next same =>
          subst same
          exact absurd owns.drawn unused.1
      · exact owns.row row stored
  | @createdRecord input sid kvTime ttl usesKv unused forward =>
      refine ⟨List.mem_cons_of_mem _ owns.drawn, owns.row, fun pair member same => ?_⟩
      rcases List.mem_cons.mp member with rfl | old
      · subst same
        exact absurd owns.drawn unused.1
      · exact owns.record pair old same
  | touchedRow sql =>
      refine ⟨owns.drawn, fun row stored => ?_, owns.record⟩
      simp only [Table.find_updateWhere, Option.map_eq_some_iff] at stored
      obtain ⟨old, found, changed⟩ := stored
      have known := owns.row old found
      split at changed
      · cases changed
        exact known
      · cases changed
        exact known
  | unmarked usesKv => exact ⟨owns.drawn, owns.row, owns.record⟩
  | marked same early admitted forward => exact ⟨owns.drawn, owns.row, owns.record⟩
  | quiet quiet wanes now =>
      refine ⟨wanes.drawn ▸ owns.drawn, fun row stored => ?_, fun pair member same => ?_⟩
      · exact owns.row row (wanes.rows _ _ stored)
      · exact owns.record pair (wanes.recordsWritten ▸ member) same

/-- A `get` serves the session that was created. -/
theorem Found.owned {sid : String} {session : Session}
    (found : Found platform consistency store time before sid session) (accounted : before.Accounted)
    (owns : creation.Owns (sha256Hex platform sid) before)
    : creation.usesKv = store.usesKv ∧ session.userId = creation.input.userId
      ∧ session.createdAt = creation.createdAt
      ∧ session.absoluteExpiresAt = creation.absoluteExpiresAt := by
  cases found with
  | row sql stored live unrevoked =>
      obtain ⟨kind, known⟩ := owns.row _ stored
      exact ⟨kind.trans sql.symm, known⟩
  | record usesKv recordForward read seenForward readSeen live unrevoked =>
      obtain ⟨pair, member, key, rfl⟩ := read.written accounted.record
      obtain ⟨kind, same⟩ := owns.record pair member key
      rw [same]
      exact ⟨kind.trans usesKv.symm, rfl, rfl, rfl⟩

/-- Nothing is found under an id that was never drawn. -/
theorem Found.drawn {sid : String} {session : Session}
    (found : Found platform consistency store time before sid session) (accounted : before.Accounted)
    : sha256Hex platform sid ∈ before.drawn := by
  cases found with
  | row sql stored live unrevoked => exact accounted.rows _ _ stored
  | record usesKv recordForward read seenForward readSeen live unrevoked =>
      obtain ⟨pair, member, key, _⟩ := read.written accounted.record
      exact key ▸ accounted.records pair member

-----------------------------------------------------------------------------------------
-- Histories of one store
-----------------------------------------------------------------------------------------

/-- A call, when it was served, and its answer. -/
structure Event where
  time : Millis
  request : Request
  answer : Answer

/-- The event is the creation of a session. -/
def Event.Created (event : Event) (input : NewSession) (session : Session) : Prop :=
  event.request = .create input ∧ event.answer = .created (.ok session)

/-- One call of a store. -/
def SessionStore.Step (platform : Platform) (consistency : Consistency) (store : SessionStore)
    (before : Storage) (event : Event) (after : Storage)
    : Prop :=
  Serves platform consistency event.time (store.call platform event.request) before event.answer after

/-- A `get` answers with a session or with none. -/
theorem get_answers {sid : String}
    (serves : Serves platform consistency time (store.call platform (.get sid)) before answer after)
    : ∃ session, answer = .found session := by
  obtain ⟨read, middle, noted, run⟩ := evaluates_call.mp serves.2
  obtain ⟨calls, leads, executes⟩ := run.trace
  obtain ⟨session, same, _⟩ := leads_of_result leads
  exact ⟨session, same⟩

/-- An id is drawn by creating a session. -/
theorem Effect.drawn (effect : Effect platform store time before request answer after)
    (drawn : sidHash ∈ after.drawn)
    : sidHash ∈ before.drawn
      ∨ ∃ input session, request = .create input ∧ answer = .created (.ok session)
          ∧ sha256Hex platform session.sid = sidHash := by
  cases effect with
  | refused => exact .inl drawn
  | createdRow sql unused inserted =>
      rcases List.mem_cons.mp drawn with rfl | old
      · exact .inr ⟨_, _, rfl, rfl, rfl⟩
      · exact .inl old
  | createdRecord usesKv unused forward =>
      rcases List.mem_cons.mp drawn with rfl | old
      · exact .inr ⟨_, _, rfl, rfl, rfl⟩
      · exact .inl old
  | touchedRow sql => exact .inl drawn
  | unmarked usesKv => exact .inl drawn
  | marked same early admitted forward => exact .inl drawn
  | quiet quiet wanes now => exact .inl (wanes.drawn ▸ drawn)

/-- An id that was drawn stays so. -/
theorem Effect.drawn_mono (effect : Effect platform store time before request answer after)
    (drawn : sidHash ∈ before.drawn)
    : sidHash ∈ after.drawn := by
  cases effect with
  | refused => exact drawn
  | createdRow sql unused inserted => exact List.mem_cons_of_mem _ drawn
  | createdRecord usesKv unused forward => exact List.mem_cons_of_mem _ drawn
  | touchedRow sql => exact drawn
  | unmarked usesKv => exact drawn
  | marked same early admitted forward => exact drawn
  | quiet quiet wanes now => exact wanes.drawn ▸ drawn

/-- The last reading is the time of the call. -/
theorem Effect.now (effect : Effect platform store time before request answer after)
    : after.now = time := by
  cases effect with
  | quiet quiet wanes now => exact now
  | _ => rfl

/-- The row of a session that was created does not come back. -/
theorem Effect.rowGone (effect : Effect platform store time before request answer after)
    (drawn : sidHash ∈ before.drawn) (gone : before.rows.find sidHash = none)
    : after.rows.find sidHash = none := by
  cases effect with
  | createdRow sql unused inserted =>
      rw [Table.find_insert inserted]
      split
      · next same =>
          subst same
          exact absurd drawn unused.1
      · exact gone
  | touchedRow sql => rw [Table.find_updateWhere, gone, Option.map_none]
  | quiet quiet wanes now =>
      rw [← Option.not_isSome_iff_eq_none, Option.isSome_iff_exists]
      rintro ⟨row, stored⟩
      exact absurd (gone.symm.trans (wanes.rows _ _ stored)) (by simp)
  | _ => exact gone

end WorkersAuth.Stores

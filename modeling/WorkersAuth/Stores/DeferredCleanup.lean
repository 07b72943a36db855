import WorkersAuth.Stores.Refusal

/-! Expired sessions whose deletion is deferred.
With `executionCtx` a `get` that finds a session expired answers before the deletion has landed,
and the deletion may never land. What is left is then judged again by every later `get`, so
the answer stays the same as long as no touch moves what is left past the clock reading at
which the session was found expired.
-/

namespace WorkersAuth.Stores

open Atomic Tables Program

variable {platform : Platform} {guarantees : Guarantees} {store : SessionStore} {start : Storage}
  {pool next later last : Sessions} {entry : Entry Op Op.Reply} {sid sidHash : String}

-----------------------------------------------------------------------------------------
-- Clock readings
-----------------------------------------------------------------------------------------

/-- The request at a position read the clock at a time, after these calls. -/
def ReadClock (pool : Sessions) (index : Nat) (earlier : List Made) (time : Millis) : Prop :=
  ∃ more, pool.history index = earlier ++ Made.clock time :: more

/-- A clock reading was there before a call, or it is the call. -/
theorem readClock_perform
    (performs : (sessionService platform guarantees store).Performs pool entry next)
    {index : Nat} {earlier : List Made} {time : Millis} (read : ReadClock next index earlier time)
    : ReadClock pool index earlier time
      ∨ entry = ⟨index, Made.clock time⟩ ∧ earlier = pool.history index := by
  obtain ⟨more, history⟩ := read
  rw [performs.history_eq] at history
  by_cases own : entry.thread = index
  · rw [if_pos own] at history
    rcases List.eq_nil_or_concat more with rfl | ⟨shorter, final, rfl⟩
    · obtain ⟨past, same⟩ := List.append_inj' history rfl
      subst own
      exact .inr ⟨congrArg (Entry.mk entry.thread) (List.singleton_inj.mp same), past.symm⟩
    · rw [List.concat_eq_append, ← List.cons_append, ← List.append_assoc] at history
      exact .inl ⟨shorter, (List.append_inj' history rfl).1⟩
  · rw [if_neg own, List.append_nil] at history
    exact .inl ⟨more, history⟩

/-- A clock reading stays where it is along a run. -/
theorem ReadClock.run {index : Nat} {earlier : List Made} {time : Millis}
    (read : ReadClock pool index earlier time)
    (run : (sessionService platform guarantees store).Run pool later)
    : ReadClock later index earlier time := by
  induction run with
  | refl => exact read
  | tail _ step ih =>
      obtain ⟨more, history⟩ := ih
      cases step with
      | arrive request => exact ⟨more, history⟩
      | perform performs =>
          exact ⟨more ++ _, by rw [performs.history_eq, history, List.append_assoc, List.cons_append]⟩

/-- Where clocks never go back, every reading so far is at most the last one. -/
theorem clock_le_now (forward : ∀ first second, guarantees.clock first second → first ≤ second)
    (reach : (sessionService platform guarantees store).Reachable start pool) {index : Nat}
    {time : Millis} (read : Made.clock time ∈ pool.history index)
    : time ≤ pool.world.now := by
  induction reach with
  | refl => exact absurd read List.not_mem_nil
  | tail _ step ih =>
      cases step with
      | arrive request => exact ih read
      | @perform made _ performs =>
          rw [performs.history_eq, List.mem_append] at read
          rcases read with old | new
          · exact (ih old).trans (now_le forward performs.executes)
          · split at new
            · obtain ⟨thread, call⟩ := made
              cases List.mem_singleton.mp new
              obtain ⟨_, same⟩ := performs.executes
              rw [same]
            · exact absurd new List.not_mem_nil

/-- A clock reading of a request that has not arrived yet is no earlier than any so far. -/
theorem now_le_clock (forward : ∀ first second, guarantees.clock first second → first ≤ second)
    (reach : (sessionService platform guarantees store).Reachable start pool)
    (run : (sessionService platform guarantees store).Run pool later) {index : Nat}
    (started : pool.threads.length ≤ index) {time : Millis}
    (read : Made.clock time ∈ later.history index)
    : pool.world.now ≤ time := by
  obtain ⟨earlier, following, before, _, performs, _⟩ :=
    reach.made_later_when run.whenever started read
  have moved : pool.world.now ≤ earlier.world.now := by
    clear performs
    induction before with
    | refl => exact le_refl _
    | tail _ step ih =>
        cases step with
        | arrive request => exact ih
        | perform _ performs => exact ih.trans (now_le forward performs.executes)
  exact moved.trans (forward _ _ performs.executes.1)

-----------------------------------------------------------------------------------------
-- Runs of gets and touches
-----------------------------------------------------------------------------------------

/-- A `get`, a `touch`, or the landing of a deferred deletion. -/
def Request.visits : Request → Bool
  | .get _ => true
  | .touch .. => true
  | .land _ => true
  | _ => false

/-- All requests so far are such. -/
def OnlyVisits (pool : Sessions) : Prop :=
  ∀ index request, pool.requestOf index = some request → request.visits = true

/-- What was only visits before a run that is now only visits. -/
theorem OnlyVisits.before (visits : OnlyVisits later)
    (run : (sessionService platform guarantees store).Run pool later)
    : OnlyVisits pool :=
  fun index request serves => visits index request (Service.requestOf_run run serves)

/-- In a run of visits no call stores a session, by induction on the run. -/
theorem visits_store_none {condition : Sessions → Entry Op Op.Reply → Prop}
    (reach : (sessionService platform guarantees store).Reachable start pool)
    (run : (sessionService platform guarantees store).RunWhen condition pool later)
    (visits : OnlyVisits later)
    : (sessionService platform guarantees store).RunWhen
        (fun pool entry => condition pool entry ∧ entry.call.op.stores = none) pool later := by
  induction run with
  | refl => exact .refl
  | @tail before after toBefore step ih =>
      have steps : (sessionService platform guarantees store).Run before after :=
        Service.RunWhen.run (.single step)
      have visited := visits.before steps
      refine (ih visited).tail ?_
      cases step with
      | arrive request => exact .arrive request
      | @perform made _ meets performs =>
          refine .perform ⟨meets, ?_⟩ performs
          obtain ⟨request, rest, serves, trace⟩ := performs.leads
            (reach.run (Service.RunWhen.run toBefore))
          cases stores : made.call.op.stores with
          | none => rfl
          | some stored =>
              obtain ⟨input, _, rfl, _⟩ := drew_of_stores trace (by simp [stores])
              nomatch visited _ _ serves

-----------------------------------------------------------------------------------------
-- The SQL stores
-----------------------------------------------------------------------------------------

/-- A request has found the row it selected expired, at a clock reading. -/
def FoundRowExpired (pool : Sessions) (sidHash : String) (time : Millis) : Prop :=
  ∃ index earlier row, ReadClock pool index earlier time
    ∧ Made.selected sidHash (some row) ∈ earlier ∧ row.expired time = true

/-- No touch moves a row past a clock reading at which a `get` has found it expired, neither
afterwards nor between the `SELECT` of that `get` and its clock reading.
-/
structure RowsUndisturbed (pool : Sessions) (entry : Entry Op Op.Reply) : Prop where
  afterwards : ∀ sidHash readAt idleExpiresAt time row,
    entry.call.op = .statement (.touchRow sidHash readAt idleExpiresAt)
    → FoundRowExpired pool sidHash time → pool.world.rows.find sidHash = some row
    → row.expired readAt = false → (row.touched readAt idleExpiresAt).expired time = true
  meanwhile : ∀ sidHash time row current,
    entry.call = Made.clock time → Made.selected sidHash (some row) ∈ pool.history entry.thread
    → row.expired time = true → pool.world.rows.find sidHash = some current
    → current.expired time = true

/-- Every stored row that was found expired is expired at that clock reading. -/
def RowsExpired (pool : Sessions) : Prop :=
  ∀ sidHash time row, FoundRowExpired pool sidHash time → pool.world.rows.find sidHash = some row
    → row.expired time = true

/-- Such rows stay expired along a run that is undisturbed, by induction on the run. -/
theorem rowsExpired
    (run : (sessionService platform guarantees store).RunWhen
      (fun pool entry => RowsUndisturbed pool entry ∧ entry.call.op.stores = none) (.start start) pool)
    : RowsExpired pool := by
  induction run with
  | refl =>
      rintro sidHash time row ⟨index, earlier, _, ⟨more, history⟩, _⟩
      simp at history
  | @tail before after _ step ih =>
      cases step with
      | arrive request => exact ih
      | @perform made _ meets performs =>
          obtain ⟨undisturbed, quiet⟩ := meets
          rintro sidHash time row ⟨index, earlier, selected, read, recorded, expired⟩ stored
          obtain ⟨thread, op, reply⟩ := made
          have origin := rowMove performs.executes stored
          rcases readClock_perform performs read with old | ⟨same, rfl⟩
          · have found : FoundRowExpired before sidHash time :=
              ⟨index, earlier, selected, old, recorded, expired⟩
            cases origin with
            | kept kept => exact ih sidHash time row found kept
            | inserted same free => contradiction
            | touched kept live changed =>
                subst changed
                exact undisturbed.afterwards _ _ _ _ _ rfl found kept live
          · cases same
            cases origin with
            | kept kept => exact undisturbed.meanwhile _ _ _ _ rfl recorded expired kept

/-- An expired row is expired at every later time. -/
theorem SessionRow.expired_mono {row : SessionRow} {first second : Millis} (le : first ≤ second)
    (expired : row.expired first = true)
    : row.expired second = true := by
  simp only [SessionRow.expired, Bool.or_eq_true, decide_eq_true_eq] at expired ⊢
  exact expired.imp le.trans' le.trans'

-----------------------------------------------------------------------------------------
-- The KV store
-----------------------------------------------------------------------------------------

/-- A request has found the record and the marker it read expired, at a clock reading. -/
def FoundRecordExpired (pool : Sessions) (sidHash : String) (record : StoredSession) (time : Millis)
    : Prop :=
  ∃ index earlier seen, ReadClock pool index earlier time
    ∧ Made.gotRecord sidHash (some record) ∈ earlier ∧ Made.gotSeen sidHash seen ∈ earlier
    ∧ record.expired seen time = true

/-- The request at a position has not answered yet. -/
def InFlight (pool : Sessions) (index : Nat) : Prop :=
  ∃ request op rest, pool.threads[index]? = some ⟨request, .call op rest⟩

/-- A record is stored under the hash, or a request that has read one is in flight. -/
def Remains (pool : Sessions) (sidHash : String) : Prop :=
  (∃ pair, pool.world.records.current.find sidHash = some pair)
  ∨ ∃ index record, InFlight pool index ∧ Made.gotRecord sidHash (some record) ∈ pool.history index

/-- While a record remains that a `get` has found expired, no touch writes a marker that reaches
past the clock reading of that `get`, neither afterwards nor between its reads and its clock
reading; and a `get` that finds a session expired finds its first idle window over as well.
-/
structure RecordsUndisturbed (pool : Sessions) (entry : Entry Op Op.Reply) : Prop where
  afterwards : ∀ sidHash marker expirationTtl record time,
    entry.call.op = .kv (.putSeen sidHash marker expirationTtl)
    → FoundRecordExpired pool sidHash record time → Remains pool sidHash
    → record.expired (some marker) time = true
  meanwhile : ∀ sidHash time record seen pair,
    entry.call = Made.clock time → Made.gotRecord sidHash (some record) ∈ pool.history entry.thread
    → Made.gotSeen sidHash seen ∈ pool.history entry.thread → record.expired seen time = true
    → pool.world.seen.current.find sidHash = some pair → record.expired (some pair.value) time = true
  firstWindow : ∀ sidHash time record seen,
    entry.call = Made.clock time → Made.gotRecord sidHash (some record) ∈ pool.history entry.thread
    → Made.gotSeen sidHash seen ∈ pool.history entry.thread → record.expired seen time = true
    → record.expired none time = true

/-- A remaining record that was found expired is expired at that clock reading, with the stored
marker and without one.
-/
def RecordsExpired (pool : Sessions) : Prop :=
  ∀ sidHash record time, FoundRecordExpired pool sidHash record time → Remains pool sidHash
    → record.expired none time = true
      ∧ ∀ pair, pool.world.seen.current.find sidHash = some pair
        → record.expired (some pair.value) time = true

/-- What a strongly consistent read of the record answers is the stored version. -/
theorem stored_of_gotRecord {clock : Millis → Millis → Prop} {before after : Storage}
    {record : StoredSession}
    (executes : exec platform ⟨clock, .strong⟩ (.kv (.getRecord sidHash)) before (some record) after)
    : ∃ pair, before.records.current.find sidHash = some pair ∧ pair.value = record := by
  obtain ⟨time, _, _, answers⟩ := executes
  obtain ⟨pair, stored, _, same⟩ := KvSpace.read_eq_some.mp (Eq.symm answers)
  exact ⟨pair, stored, same⟩

variable {clock : Millis → Millis → Prop}

/-- A call that stores no session cannot make a record remain that did not. -/
theorem Remains.before
    (performs : (sessionService platform ⟨clock, .strong⟩ store).Performs pool entry next)
    (quiet : entry.call.op.stores = none) (remains : Remains next sidHash)
    : Remains pool sidHash := by
  have flying : InFlight pool entry.thread := by
    cases performs with
    | intro running executes => exact ⟨_, _, _, running⟩
  rcases remains with ⟨pair, stored⟩ | ⟨index, record, ⟨request, op, rest, running⟩, recorded⟩
  · rcases recordMove performs.executes stored with old | ⟨added, ttl, same, _⟩
    · exact .inl ⟨pair, old⟩
    · rw [same] at quiet
      contradiction
  · rw [performs.history_eq, List.mem_append] at recorded
    rcases recorded with old | new
    · refine .inr ⟨index, record, ?_, old⟩
      by_cases own : entry.thread = index
      · exact own ▸ flying
      · cases performs with
        | intro _ executes => exact ⟨request, op, rest, (List.getElem?_set_ne own).symm.trans running⟩
    · split at new
      · obtain ⟨thread, call⟩ := entry
        cases List.mem_singleton.mp new
        have executes : exec platform ⟨clock, .strong⟩ (.kv (.getRecord sidHash)) pool.world
          (some record) next.world := performs.executes
        obtain ⟨pair, stored, _⟩ := stored_of_gotRecord executes
        exact .inl ⟨pair, stored⟩
      · exact absurd new List.not_mem_nil

/-- An arrival makes no record remain. -/
theorem Remains.before_arrive
    (reach : (sessionService platform ⟨clock, .strong⟩ store).Reachable start pool) {request : Request}
    (remains : Remains ((sessionService platform ⟨clock, .strong⟩ store).arrive pool request) sidHash)
    : Remains pool sidHash := by
  rcases remains with stored | ⟨index, record, ⟨served, op, rest, running⟩, recorded⟩
  · exact .inl stored
  · refine .inr ⟨index, record, ⟨served, op, rest, ?_⟩, recorded⟩
    by_cases inside : index < pool.threads.length
    · exact (List.getElem?_append_left inside).symm.trans running
    · have none_made : pool.history index = [] := reach.history_nil (not_lt.mp inside)
      exact absurd (none_made ▸ recorded) List.not_mem_nil

/-- Remaining records stay expired along a run that is undisturbed, by induction on the run. -/
theorem recordsExpired
    (run : (sessionService platform ⟨clock, .strong⟩ store).RunWhen
      (fun pool entry => RecordsUndisturbed pool entry ∧ entry.call.op.stores = none)
      (.start start) pool)
    : RecordsExpired pool := by
  induction run with
  | refl =>
      rintro sidHash record time ⟨index, earlier, _, ⟨more, history⟩, _⟩
      simp at history
  | @tail before after toBefore step ih =>
      cases step with
      | arrive request =>
          intro sidHash record time found remains
          exact ih sidHash record time found (remains.before_arrive (Service.RunWhen.run toBefore))
      | @perform made _ meets performs =>
          obtain ⟨undisturbed, quiet⟩ := meets
          rintro sidHash record time ⟨index, earlier, seen, read, gotRecord, gotSeen, expired⟩ remains
          have remained := remains.before performs quiet
          rcases readClock_perform performs read with old | ⟨same, rfl⟩
          · have found : FoundRecordExpired before sidHash record time :=
              ⟨index, earlier, seen, old, gotRecord, gotSeen, expired⟩
            obtain ⟨first, stored⟩ := ih sidHash record time found remained
            refine ⟨first, fun pair now => ?_⟩
            rcases seenMove performs.executes now with kept | ⟨marker, ttl, put, rfl⟩
            · exact stored pair kept
            · exact undisturbed.afterwards _ _ _ _ _ put found remained
          · have reads : made.call = Made.clock time := congrArg Entry.call same
            have thread : made.thread = index := congrArg Entry.thread same
            subst thread
            refine ⟨undisturbed.firstWindow _ _ _ _ reads gotRecord gotSeen expired, fun pair now => ?_⟩
            rcases seenMove performs.executes now with kept | ⟨marker, ttl, put, _⟩
            · exact undisturbed.meanwhile _ _ _ _ _ reads gotRecord gotSeen expired kept
            · rw [reads] at put
              contradiction

/-- In a run that stores no session, a record that was read is the one that is still stored, by
induction on the run.
-/
theorem gotRecord_stored
    (run : (sessionService platform ⟨clock, .strong⟩ store).RunWhen
      (fun _ entry => entry.call.op.stores = none) (.start start) pool)
    {index : Nat} {record : StoredSession} {pair : KvPair StoredSession}
    (got : Made.gotRecord sidHash (some record) ∈ pool.history index)
    (stored : pool.world.records.current.find sidHash = some pair)
    : pair.value = record := by
  induction run with
  | refl => exact absurd got List.not_mem_nil
  | tail _ step ih =>
      cases step with
      | arrive request => exact ih got stored
      | @perform made _ quiet performs =>
          rcases recordMove performs.executes stored with old | ⟨added, ttl, same, _⟩
          · rw [performs.history_eq, List.mem_append] at got
            rcases got with before | new
            · exact ih before old
            · split at new
              · obtain ⟨thread, call⟩ := made
                cases List.mem_singleton.mp new
                have executes : exec platform ⟨clock, .strong⟩ (.kv (.getRecord sidHash)) _
                  (some record) _ := performs.executes
                obtain ⟨read, found, rfl⟩ := stored_of_gotRecord executes
                cases found.symm.trans old
                rfl
              · exact absurd new List.not_mem_nil
          · rw [same] at quiet
            contradiction

/-- A record that is stored after a run that stores no session was stored before it. -/
theorem record_before_run
    (run : (sessionService platform ⟨clock, .strong⟩ store).RunWhen
      (fun _ entry => entry.call.op.stores = none) pool later)
    {pair : KvPair StoredSession} (stored : later.world.records.current.find sidHash = some pair)
    : pool.world.records.current.find sidHash = some pair := by
  induction run with
  | refl => exact stored
  | tail _ step ih =>
      cases step with
      | arrive request => exact ih stored
      | perform quiet performs =>
          rcases recordMove performs.executes stored with old | ⟨added, ttl, same, _⟩
          · exact ih old
          · rw [same] at quiet
            contradiction

/-- An expired record is expired at every later time. -/
theorem StoredSession.expired_mono {record : StoredSession} {seen : Option SeenMarker}
    {first second : Millis} (le : first ≤ second) (expired : record.expired seen first = true)
    : record.expired seen second = true := by
  simp only [StoredSession.expired, Bool.or_eq_true, decide_eq_true_eq] at expired ⊢
  exact expired.imp le.trans' le.trans'

-----------------------------------------------------------------------------------------
-- What a refusal and a served session tell
-----------------------------------------------------------------------------------------

/-- What `get` gets rid of first when it finds a session expired. -/
def SessionStore.remnant : SessionStore → String → Deletion
  | .kv _, sidHash => .record sidHash
  | _, sidHash => .row sidHash

/-- The `get` at a position has answered null because it found the session expired: it has handed
the deletion to `waitUntil`.
-/
def RefusedAsExpired (platform : Platform) (store : SessionStore) (pool : Sessions) (index : Nat)
    (sid : String)
    : Prop :=
  pool.Answered index (.get sid) (.found none)
  ∧ Made.settled true (store.remnant (sha256Hex platform sid)) ∈ pool.history index

/-- The step condition of each store. -/
def Undisturbed : SessionStore → Sessions → Entry Op Op.Reply → Prop
  | .kv _ => RecordsUndisturbed
  | _ => RowsUndisturbed

/-- Asking the revocation list and reading KV defer no deletion. -/
theorem check_defers_none {revocation : Option RevocationList} {userId : String} {createdAt : Millis}
    {revoked : Bool} {check : List Made}
    (leads : (checkRevoked revocation sidHash userId createdAt).Leads check (.pure revoked))
    (deletion : Deletion)
    : Made.settled true deletion ∉ check := by
  have within : (checkRevoked revocation sidHash userId createdAt).Within
      (fun op => op ≠ .statement (.deferDelete deletion)) := by
    cases revocation <;> simp [checkRevoked, revocationList.isRevoked]
  exact fun member => within.made leads _ member rfl

theorem reads_defer_none {record : Option StoredSession} {seen : Option SeenMarker}
    {reads : List Made}
    (leads : (kvSessionStore.readBoth sidHash).Leads reads (.pure (record, seen)))
    (deletion : Deletion)
    : Made.settled true deletion ∉ reads := by
  have within : (kvSessionStore.readBoth sidHash).Within
      (fun op => op ≠ .statement (.deferDelete deletion)) := by
    refine .perform nofun (fun first => ?_)
    cases first <;> simp
  exact fun member => within.made leads _ member rfl

/-- A refusal as expired has found the row it selected expired. -/
theorem foundRowExpired_of_refusal {revocation : Option RevocationList} {executionCtx : Bool}
    {more : List Made} {index : Nat} {time : Millis}
    (leads : (sqlSessionStore.get platform revocation executionCtx sid).Leads more (.pure none))
    (history : pool.history index = ⟨.called, time⟩ :: more)
    (deferred : Made.settled true (.row (sha256Hex platform sid)) ∈ pool.history index)
    : ∃ readAt, FoundRowExpired pool (sha256Hex platform sid) readAt
        ∧ Made.clock readAt ∈ pool.history index := by
  rw [history] at deferred ⊢
  cases sqlSessionStore.get_leads leads with
  | missing => simp [Made.settled, Made.selected] at deferred
  | revoked checked =>
      simp only [List.mem_cons] at deferred
      rcases deferred with impossible | impossible | inside
      · cases impossible
      · cases impossible
      · exact absurd inside (check_defers_none checked _)
  | @expired row check readAt checked expired =>
      refine ⟨readAt, ⟨index, _, row, ⟨_, history⟩, List.mem_cons_of_mem _ List.mem_cons_self, expired⟩, ?_⟩
      exact List.mem_cons_of_mem _ (List.mem_append_right _ List.mem_cons_self)

/-- A refusal as expired has found the record and the marker it read expired. -/
theorem foundRecordExpired_of_refusal {options : KvSessionStoreOptions} {more : List Made}
    {index : Nat} {time : Millis}
    (leads : (kvSessionStore.get platform options sid).Leads more (.pure none))
    (history : pool.history index = ⟨.called, time⟩ :: more)
    (deferred : Made.settled true (.record (sha256Hex platform sid)) ∈ pool.history index)
    : ∃ record readAt, FoundRecordExpired pool (sha256Hex platform sid) record readAt
        ∧ Made.gotRecord (sha256Hex platform sid) (some record) ∈ pool.history index
        ∧ Made.clock readAt ∈ pool.history index := by
  rw [history] at deferred ⊢
  have notCalled : Made.settled true (.record (sha256Hex platform sid)) ≠ ⟨.called, time⟩ := nofun
  have inside := (List.mem_cons.mp deferred).resolve_left notCalled
  cases kvSessionStore.get_leads leads with
  | missing read => exact absurd inside (reads_defer_none read _)
  | version read other => exact absurd inside (reads_defer_none read _)
  | @expired reads forgets record seen readAt read known expired forgot =>
      obtain ⟨gotRecord, gotSeen⟩ := mem_of_readBoth read
      refine ⟨record, readAt, ⟨index, ⟨.called, time⟩ :: reads, seen, ⟨forgets, history⟩,
        List.mem_cons_of_mem _ gotRecord, List.mem_cons_of_mem _ gotSeen, expired⟩, ?_, ?_⟩
      · exact List.mem_cons_of_mem _ (List.mem_append_left _ gotRecord)
      · exact List.mem_cons_of_mem _ (List.mem_append_right _ List.mem_cons_self)
  | revoked read known live checked =>
      rcases List.mem_append.mp inside with early | late
      · exact absurd early (reads_defer_none read _)
      · rcases List.mem_cons.mp late with impossible | checks
        · nomatch impossible
        · exact absurd checks (check_defers_none checked _)

/-- A row that was found expired is not served to a `get` that starts later. -/
theorem row_not_served {clock : Millis → Millis → Prop}
    (forward : ∀ first second, clock first second → first ≤ second)
    (run : (sessionService platform ⟨clock, .strong⟩ store).RunWhen
      (fun pool entry => RowsUndisturbed pool entry ∧ entry.call.op.stores = none)
      (.start start) later)
    (rest : (sessionService platform ⟨clock, .strong⟩ store).RunWhen
      (fun pool entry => RowsUndisturbed pool entry ∧ entry.call.op.stores = none) later last)
    {index reader : Nat} {readAt : Millis} (found : FoundRowExpired later sidHash readAt)
    (read : Made.clock readAt ∈ later.history index) (started : later.threads.length ≤ reader)
    {row : SessionRow} {servedAt : Millis}
    (selected : Made.selected sidHash (some row) ∈ last.history reader)
    (clocked : Made.clock servedAt ∈ last.history reader)
    : row.expired servedAt = true := by
  have reach : (sessionService platform ⟨clock, .strong⟩ store).Reachable start later :=
    Service.RunWhen.run run
  obtain ⟨earlier, _, before, _, selects, _⟩ := reach.made_later_when rest started selected
  have stored : earlier.world.rows.find sidHash = some row := by
    have executes := selects.executes
    simp only [sessionService, exec, Made.selected, Statement.run, Option.some.injEq,
      Prod.mk.injEq] at executes
    exact executes.1
  obtain ⟨foundBy, calls, seenRow, reading, recorded, expired⟩ := found
  have still : FoundRowExpired earlier sidHash readAt :=
    ⟨foundBy, calls, seenRow, reading.run (Service.RunWhen.run before), recorded, expired⟩
  have lapsed := rowsExpired (run.trans before) sidHash readAt row still stored
  have order : readAt ≤ servedAt :=
    (clock_le_now forward reach read).trans
      (now_le_clock forward reach (Service.RunWhen.run rest) started clocked)
  exact SessionRow.expired_mono order lapsed

/-- A marker that is read while the record remains leaves the record expired. -/
theorem marker_judged {clock : Millis → Millis → Prop}
    (run : (sessionService platform ⟨clock, .strong⟩ store).RunWhen
      (fun pool entry => RecordsUndisturbed pool entry ∧ entry.call.op.stores = none)
      (.start start) pool)
    {record : StoredSession} {readAt : Millis} (found : FoundRecordExpired pool sidHash record readAt)
    (remains : Remains pool sidHash) {reader : Nat} {seen : Option SeenMarker}
    (performs : (sessionService platform ⟨clock, .strong⟩ store).Performs pool
      ⟨reader, Made.gotSeen sidHash seen⟩ next)
    : record.expired seen readAt = true := by
  obtain ⟨first, stored⟩ := recordsExpired run sidHash record readAt found remains
  obtain ⟨time, _, _, answers⟩ := performs.executes
  cases seen with
  | none => exact first
  | some marker =>
      obtain ⟨pair, kept, _, rfl⟩ := KvSpace.read_eq_some.mp (Eq.symm answers)
      exact stored pair kept

/-- A record that was found expired is not served to a `get` that starts later: whichever of its
reads comes second, the record remains when the marker is read.
-/
theorem record_not_served {clock : Millis → Millis → Prop}
    (forward : ∀ first second, clock first second → first ≤ second)
    (run : (sessionService platform ⟨clock, .strong⟩ store).RunWhen
      (fun pool entry => RecordsUndisturbed pool entry ∧ entry.call.op.stores = none)
      (.start start) later)
    (rest : (sessionService platform ⟨clock, .strong⟩ store).RunWhen
      (fun pool entry => RecordsUndisturbed pool entry ∧ entry.call.op.stores = none) later last)
    {index reader : Nat} {readAt : Millis} {record : StoredSession}
    (found : FoundRecordExpired later sidHash record readAt)
    (got : Made.gotRecord sidHash (some record) ∈ later.history index)
    (read : Made.clock readAt ∈ later.history index) (started : later.threads.length ≤ reader)
    {time servedAt : Millis} {reads more : List Made} {served : StoredSession}
    {seen : Option SeenMarker}
    (both : (kvSessionStore.readBoth sidHash).Leads reads (.pure (some served, seen)))
    (history : last.history reader = ⟨.called, time⟩ :: (reads ++ .clock servedAt :: more))
    : served.expired seen servedAt = true := by
  have reach : (sessionService platform ⟨clock, .strong⟩ store).Reachable start later :=
    Service.RunWhen.run run
  have clocked : Made.clock servedAt ∈ last.history reader :=
    history ▸ List.mem_cons_of_mem _ (List.mem_append_right _ List.mem_cons_self)
  have order : readAt ≤ servedAt :=
    (clock_le_now forward reach read).trans
      (now_le_clock forward reach (Service.RunWhen.run rest) started clocked)
  obtain ⟨foundBy, calls, judged, reading, gotRecord, gotSeen, expired⟩ := found
  have still {state : Sessions}
      (before : (sessionService platform ⟨clock, .strong⟩ store).Run later state)
      : FoundRecordExpired state sidHash record readAt :=
    ⟨foundBy, calls, judged, reading.run before, gotRecord, gotSeen, expired⟩
  -- a record that is read later is the one that was found expired
  have same {state following : Sessions} {answer : StoredSession}
      (before : (sessionService platform ⟨clock, .strong⟩ store).RunWhen
        (fun pool entry => RecordsUndisturbed pool entry ∧ entry.call.op.stores = none) later state)
      (performs : (sessionService platform ⟨clock, .strong⟩ store).Performs state
        ⟨reader, Made.gotRecord sidHash (some answer)⟩ following)
      : answer = record ∧ ∃ pair, state.world.records.current.find sidHash = some pair := by
    have executes : exec platform ⟨clock, .strong⟩ (.kv (.getRecord sidHash)) state.world
      (some answer) following.world := performs.executes
    obtain ⟨pair, stored, rfl⟩ := stored_of_gotRecord executes
    have quiet := Service.RunWhen.weaken (run.trans before) (fun _ _ meets => meets.2)
    exact ⟨gotRecord_stored quiet (Service.mem_history_run (Service.RunWhen.run before) got) stored,
      pair, stored⟩
  obtain ⟨first, rfl⟩ := kvSessionStore.readBoth_leads both
  cases first with
  | true =>
      have split : last.history reader
          = [⟨.called, time⟩, ⟨.recordFirst, true⟩, .gotRecord sidHash (some served)]
            ++ .gotSeen sidHash seen :: .clock servedAt :: more := history
      obtain ⟨second, _, toSecond, past, _, readsSeen, _⟩ :=
        reach.made_later_split rest started split
      have recorded : Made.gotRecord sidHash (some served) ∈ second.history reader := by simp [past]
      obtain ⟨earlier, _, toEarlier, _, readsRecord, _⟩ :=
        reach.made_later_when toSecond started recorded
      obtain ⟨rfl, _⟩ := same toEarlier readsRecord
      have flying : InFlight second reader := by
        cases readsSeen with
        | intro running executes => exact ⟨_, _, _, running⟩
      have lapsed := marker_judged (run.trans toSecond) (still (Service.RunWhen.run toSecond))
        (.inr ⟨reader, served, flying, recorded⟩) readsSeen
      exact StoredSession.expired_mono order lapsed
  | false =>
      have split : last.history reader
          = [⟨.called, time⟩, ⟨.recordFirst, false⟩, .gotSeen sidHash seen]
            ++ .gotRecord sidHash (some served) :: .clock servedAt :: more := history
      obtain ⟨second, _, toSecond, past, _, readsRecord, _⟩ :=
        reach.made_later_split rest started split
      have recorded : Made.gotSeen sidHash seen ∈ second.history reader := by simp [past]
      obtain ⟨earlier, following, toEarlier, meets, readsSeen, onwards⟩ :=
        reach.made_later_when toSecond started recorded
      obtain ⟨rfl, pair, stored⟩ := same toSecond readsRecord
      have between : (sessionService platform ⟨clock, .strong⟩ store).RunWhen
          (fun _ entry => entry.call.op.stores = none) earlier second :=
        Relation.ReflTransGen.head (.perform meets.2 readsSeen)
          (Service.RunWhen.weaken onwards (fun _ _ meets => meets.2))
      have lapsed := marker_judged (run.trans toEarlier) (still (Service.RunWhen.run toEarlier))
        (.inl ⟨pair, record_before_run between stored⟩) readsSeen
      exact StoredSession.expired_mono order lapsed

/-- Deferring the cleanup of an expired session changes no answer in a run of gets and touches in
which no touch moves what is left of a session past the clock reading of a `get` that found it
expired: once a `get` has answered null for that reason, no `get` of the session that starts
later returns it, whenever the deferred deletions land, if they do.
-/
theorem deferredCleanup_changes_nothing {clock : Millis → Millis → Prop}
    (forward : ∀ first second, clock first second → first ≤ second)
    (run : (sessionService platform ⟨clock, .strong⟩ store).RunWhen (Undisturbed store)
      (.start start) later)
    {refuser : Nat} (refused : RefusedAsExpired platform store later refuser sid)
    (rest : (sessionService platform ⟨clock, .strong⟩ store).RunWhen (Undisturbed store) later last)
    (visits : OnlyVisits last) {reader : Nat} (started : later.threads.length ≤ reader)
    {answer : Option Session} (answered : last.Answered reader (.get sid) (.found answer))
    : answer = none := by
  cases answer with
  | none => rfl
  | some session =>
      have reach : (sessionService platform ⟨clock, .strong⟩ store).Reachable start later :=
        Service.RunWhen.run run
      have quiet := visits_store_none .refl run (visits.before (Service.RunWhen.run rest))
      have quietRest := visits_store_none reach rest visits
      obtain ⟨refusal, deferred⟩ := refused
      obtain ⟨_, earlier, refusedBy, leads⟩ := service_leads (reach.leads_answered refusal)
      obtain ⟨_, more, servedBy, serves⟩ :=
        service_leads ((reach.run (Service.RunWhen.run rest)).leads_answered answered)
      have refuses := get_answer leads
      have returns := get_answer serves
      cases store with
      | d1 options =>
          obtain ⟨readAt, found, read⟩ := foundRowExpired_of_refusal refuses refusedBy deferred
          cases sqlSessionStore.get_leads returns with
          | @live row check servedAt checked fresh =>
              have lapsed := row_not_served forward quiet quietRest found read started
                (servedBy ▸ List.mem_cons_of_mem _ List.mem_cons_self)
                (servedBy ▸ List.mem_cons_of_mem _ (List.mem_append_right _ List.mem_cons_self))
              exact absurd lapsed (Bool.eq_false_iff.mp fresh)
      | pg options =>
          obtain ⟨readAt, found, read⟩ := foundRowExpired_of_refusal refuses refusedBy deferred
          cases sqlSessionStore.get_leads returns with
          | @live row check servedAt checked fresh =>
              have lapsed := row_not_served forward quiet quietRest found read started
                (servedBy ▸ List.mem_cons_of_mem _ List.mem_cons_self)
                (servedBy ▸ List.mem_cons_of_mem _ (List.mem_append_right _ List.mem_cons_self))
              exact absurd lapsed (Bool.eq_false_iff.mp fresh)
      | kv options =>
          obtain ⟨record, readAt, found, got, read⟩ :=
            foundRecordExpired_of_refusal refuses refusedBy deferred
          cases kvSessionStore.get_leads returns with
          | live reads known fresh checked =>
              have lapsed := record_not_served forward quiet quietRest found got read started reads
                servedBy
              exact absurd lapsed (Bool.eq_false_iff.mp fresh)

-----------------------------------------------------------------------------------------
-- Played runs
-----------------------------------------------------------------------------------------

/-- Whether a touch updates before anything is selected, and a `get` that finds the row it selected
expired finds what is stored expired.
-/
def rowsUndisturbed (pool : Sessions) (entry : Entry Op Op.Reply) : Bool :=
  match entry.call with
  | ⟨.statement (.touchRow ..), _⟩ =>
      pool.log.all (fun made =>
        match made.call.op with
        | .statement (.selectRow _) => false
        | _ => true)
  | ⟨.clock, time⟩ =>
      (pool.history entry.thread).all (fun made =>
        match made with
        | ⟨.statement (.selectRow sidHash), some row⟩ =>
            !row.expired time || (pool.world.rows.find sidHash).all (·.expired time)
        | _ => true)
  | _ => true

theorem rowsUndisturbed_sound (pool : Sessions) (entry : Entry Op Op.Reply)
    (passes : rowsUndisturbed pool entry = true)
    : RowsUndisturbed pool entry := by
  obtain ⟨thread, op, reply⟩ := entry
  constructor
  · rintro sidHash readAt idleExpiresAt time row rfl
      ⟨index, earlier, selected, ⟨more, history⟩, recorded, _⟩ _ _
    have logged : Made.selected sidHash (some selected) ∈ pool.history index :=
      history ▸ List.mem_append_left _ recorded
    have none_selected := List.all_eq_true.mp passes _ (Service.mem_history.mp logged)
    nomatch none_selected
  · intro sidHash time row current reads recorded expired stored
    cases reads
    have judged := List.all_eq_true.mp passes _ recorded
    simpa [Made.selected, expired, stored] using judged

/-- The requests so far are visits. -/
theorem onlyVisits_of_all
    (all : pool.threads.all (fun thread => thread.request.visits) = true)
    : OnlyVisits pool := by
  intro index request serves
  obtain ⟨thread, found, rfl⟩ := Option.map_eq_some_iff.mp serves
  exact List.all_eq_true.mp all thread (List.mem_of_getElem? found)

/-- The `get` at a position has answered null and handed the deletion to `waitUntil`. -/
def hasRefusedExpired (pool : Sessions) (index : Nat) : Bool :=
  Sample.hasGot pool index Option.isNone
  && (pool.history index).any (fun made =>
    match made.op with
    | .statement (.deferDelete deletion) => deletion = .row (sha256Hex Sample.platform Sample.sid)
    | _ => false)

theorem hasRefusedExpired_refused {index : Nat} (checked : hasRefusedExpired pool index = true)
    : RefusedAsExpired Sample.platform Sample.deferring pool index Sample.sid := by
  obtain ⟨got, deferred⟩ := (Bool.and_eq_true ..).mp checked
  obtain ⟨found, answered, absent⟩ := Sample.hasGot_answered got
  obtain rfl : found = none := by simpa using absent
  obtain ⟨⟨op, reply⟩, member, same⟩ := List.any_eq_true.mp deferred
  refine ⟨answered, ?_⟩
  dsimp only at same
  split at same
  · obtain rfl := of_decide_eq_true same
    exact member
  · contradiction

/-- A touch moves the expiry, the session is found expired an hour after the touch, and a later
`get` that starts before the deletion has landed finds it expired as well.
-/
theorem deferredCleanup_changes_nothing_played
    : ∃ later last : Sessions, ∃ answer,
        (sessionService Sample.platform ⟨(· ≤ ·), .strong⟩ Sample.deferring).RunWhen
          (Undisturbed Sample.deferring) (.start Sample.stored) later
        ∧ RefusedAsExpired Sample.platform Sample.deferring later 1 Sample.sid
        ∧ (sessionService Sample.platform ⟨(· ≤ ·), .strong⟩ Sample.deferring).RunWhen
          (Undisturbed Sample.deferring) later last
        ∧ last.Answered 2 (.get Sample.sid) (.found answer) ∧ answer = none := by
  obtain ⟨later, last, run, rest, checked⟩ := Sample.exists_played_when (· ≤ ·) Sample.deferring
    Sample.stored rowsUndisturbed_sound
    (.arrive (.touch 0 Sample.sid 3601000) :: Sample.calls 0 3 { now := 1000 }
      ++ .arrive (.get Sample.sid) :: Sample.calls 1 4 { now := 3601000 })
    (.arrive (.get Sample.sid) :: Sample.calls 2 4 { now := 3602000 })
    (fun later last => hasRefusedExpired later 1 && Sample.hasGot last 2 Option.isNone
      && later.threads.length ≤ 2 && last.threads.all (fun thread => thread.request.visits))
    (by decide +kernel)
  simp only [Bool.and_eq_true, decide_eq_true_eq] at checked
  obtain ⟨⟨⟨refused, got⟩, started⟩, visits⟩ := checked
  obtain ⟨answer, answered, _⟩ := Sample.hasGot_answered got
  have expired := hasRefusedExpired_refused refused
  have same := deferredCleanup_changes_nothing (fun _ _ le => le) run expired rest
    (onlyVisits_of_all visits) started answered
  exact ⟨later, last, answer, run, expired, rest, answered, same⟩

/-- A touch reads its clock a second before the expiry and updates after a `get` has answered null
because the session was expired, with its deletion not landed yet: the next `get` returns
the session.
-/
theorem deferredCleanup_revives
    : ∃ later last : Sessions, ∃ session,
        (sessionService Sample.platform ⟨(· ≤ ·), .strong⟩ Sample.deferring).Reachable
          Sample.stored later
        ∧ RefusedAsExpired Sample.platform Sample.deferring later 1 Sample.sid
        ∧ (sessionService Sample.platform ⟨(· ≤ ·), .strong⟩ Sample.deferring).Run later last
        ∧ OnlyVisits last ∧ later.threads.length ≤ 2
        ∧ last.Answered 2 (.get Sample.sid) (.found (some session)) := by
  obtain ⟨later, last, _, reach, run, _, checked⟩ := Sample.exists_played (· ≤ ·) Sample.deferring
    Sample.stored
    (.arrive (.touch 0 Sample.sid 7199000) :: Sample.calls 0 2 { now := 3599000 }
      ++ .arrive (.get Sample.sid) :: Sample.calls 1 4 { now := 3600000 })
    (Sample.calls 0 1 { now := 3600000 }
      ++ .arrive (.get Sample.sid) :: Sample.calls 2 3 { now := 3600000 })
    []
    (fun later last _ => hasRefusedExpired later 1 && Sample.hasGot last 2 Option.isSome
      && later.threads.length ≤ 2 && last.threads.all (fun thread => thread.request.visits))
    (by decide +kernel)
  simp only [Bool.and_eq_true, decide_eq_true_eq] at checked
  obtain ⟨⟨⟨refused, got⟩, started⟩, visits⟩ := checked
  obtain ⟨answer, answered, served⟩ := Sample.hasGot_answered got
  obtain ⟨session, rfl⟩ := Option.isSome_iff_exists.mp served
  exact ⟨later, last, session, reach, hasRefusedExpired_refused refused, run,
    onlyVisits_of_all visits, started, answered⟩

end WorkersAuth.Stores

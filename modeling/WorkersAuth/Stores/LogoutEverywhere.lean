import WorkersAuth.Stores.Refusal

/-! `revokeAllForUser` on the SQL stores without a revocation list.
The deletion reaches the rows that are there. A row of the user that is inserted afterwards is
kept whatever its `created_at`, and a `create` takes its timestamp before it inserts, so the
revocation is complete exactly as long as no row older than it is inserted after it.
-/

namespace WorkersAuth.Stores

open Atomic Tables Program

variable {platform : Platform} {guarantees : Guarantees} {store : SessionStore} {start : Storage}
  {pool next last : Sessions}

/-- D1 or Postgres without a revocation list. -/
def SessionStore.sqlAlone : SessionStore → Bool
  | .d1 options => options.revocation.isNone
  | .pg _ => true
  | .kv _ => false

/-- A `revokeAllForUser` that was called at a time has answered. -/
def RevokedAll (pool : Sessions) (userId : String) (time : Millis) : Prop :=
  ∃ index, pool.Answered index (.revokeAllForUser userId) .done
    ∧ ⟨.called, time⟩ ∈ pool.history index

/-- A row is inserted only with a `created_at` later than the call of every finished
`revokeAllForUser` of its user.
-/
def InsertsNewer (pool : Sessions) (entry : Entry Op Op.Reply) : Prop :=
  ∀ row time, entry.call.op = .statement (.insertRow row) → RevokedAll pool row.userId time
    → time < row.createdAt

/-- Every row of a user is newer than every finished `revokeAllForUser` of the user. -/
def RowsNewer (pool : Sessions) : Prop :=
  ∀ userId time, RevokedAll pool userId time
    → ∀ sidHash row, pool.world.rows.find sidHash = some row → row.userId = userId
      → time < row.createdAt

/-- The last call of `revokeAllForUser` deletes the user's rows. -/
theorem revokeAll_last (sql : store.sqlAlone = true) {userId : String} {calls : List Made}
    (leads : ((sessionService platform guarantees store).program
      (.revokeAllForUser userId)).Leads calls (.pure .done))
    : ∃ earlier, calls = earlier ++ [Made.did (.deleteUserRows userId) ()] := by
  obtain ⟨time, more, rfl, answers⟩ := service_leads leads
  have deletes := revokeAllForUser_answer answers
  cases store with
  | d1 options =>
      obtain ⟨markers, _, rfl⟩ := sqlSessionStore.revokeAllForUser_leads deletes
      exact ⟨⟨.called, time⟩ :: markers, rfl⟩
  | pg options =>
      obtain ⟨markers, _, rfl⟩ := sqlSessionStore.revokeAllForUser_leads deletes
      exact ⟨⟨.called, time⟩ :: markers, rfl⟩
  | kv options => contradiction

/-- After the deletion of a user's rows none is left. -/
theorem deleteUserRows_find {before after : Storage} {userId sidHash : String} {row : SessionRow}
    (executes : exec platform guarantees (.statement (.deleteUserRows userId)) before () after)
    (stored : after.rows.find sidHash = some row)
    : row.userId ≠ userId := by
  cases executes
  simp only [Storage.deleteRows, Table.find_deleteWhere, Option.filter_eq_some_iff] at stored
  simpa using stored.2

/-- A call that meets the condition keeps the rows newer, by cases on whose call it is. -/
theorem RowsNewer.perform (sql : store.sqlAlone = true)
    (reach : (sessionService platform guarantees store).Reachable start pool)
    (newer : RowsNewer pool) {entry : Entry Op Op.Reply} (meets : InsertsNewer pool entry)
    (performs : (sessionService platform guarantees store).Performs pool entry next)
    : RowsNewer next := by
  rintro userId time ⟨index, answered, called⟩ sidHash row stored owned
  have reached := reach.step (.perform performs)
  rw [performs.history_eq] at called
  rcases performs.answered_before answered with before | own
  · rw [if_neg (performs.thread_ne before), List.append_nil] at called
    have finished : RevokedAll pool userId time := ⟨index, before, called⟩
    cases entry with
    | mk thread call =>
        obtain ⟨op, reply⟩ := call
        cases rowMove performs.executes stored with
        | kept found => exact newer userId time finished sidHash row found owned
        | inserted same free => exact meets row time rfl (owned ▸ finished)
        | @touched old readAt idleExpiresAt found live changed =>
            subst changed
            exact newer userId time finished sidHash old found owned
  · obtain ⟨earlier, history⟩ := revokeAll_last sql (reached.leads_answered answered)
    rw [performs.history_eq, if_pos own] at history
    obtain ⟨_, same⟩ := List.append_inj' history rfl
    obtain ⟨thread, call⟩ := entry
    cases List.singleton_inj.mp same
    have executes : exec platform guarantees (.statement (.deleteUserRows userId)) pool.world ()
      next.world := performs.executes
    exact absurd owned (deleteUserRows_find executes stored)

/-- The rows stay newer along a run that meets the condition, by induction on the run. -/
theorem rowsNewer (sql : store.sqlAlone = true)
    (run : (sessionService platform guarantees store).RunWhen InsertsNewer (.start start) pool)
    : RowsNewer pool := by
  induction run with
  | refl =>
      rintro userId time ⟨index, answered, _⟩
      simp [Pool.Answered, Pool.start] at answered
  | tail before step ih =>
      cases step with
      | arrive request =>
          rintro userId time ⟨index, answered, called⟩
          rcases Service.answered_before_arrive answered with old | immediate
          · exact ih userId time ⟨index, old, called⟩
          · contradiction
      | perform meets performs =>
          exact ih.perform sql (Service.RunWhen.run before) meets performs

/-- Log out everywhere misses no session in a run in which no row is inserted that is as old as a
finished `revokeAllForUser` of its user: once one that was called at a time has answered,
no `get` that starts later returns a session of the user created at that time or before.
-/
theorem revokeAll_misses_none (sql : store.sqlAlone = true)
    (run : (sessionService platform guarantees store).RunWhen InsertsNewer (.start start) pool)
    {index : Nat} {userId : String} {time : Millis}
    (revoked : pool.Answered index (.revokeAllForUser userId) .done)
    (called : ⟨.called, time⟩ ∈ pool.history index)
    (rest : (sessionService platform guarantees store).RunWhen InsertsNewer pool last)
    {reader : Nat} (started : pool.threads.length ≤ reader) {sid : String} {session : Session}
    (answered : last.Answered reader (.get sid) (.found (some session)))
    (owned : session.userId = userId)
    : time < session.createdAt := by
  have reach : (sessionService platform guarantees store).Reachable start pool := run.run
  obtain ⟨_, more, history, leads⟩ := service_leads ((reach.run rest.run).leads_answered answered)
  have row : ∃ row, Made.selected (sha256Hex platform sid) (some row) ∈ last.history reader
      ∧ session = rowToSession row sid := by
    have sqlRow {revocation : Option RevocationList} {executionCtx : Bool}
        (leads : (sqlSessionStore.get platform revocation executionCtx sid).Leads more
          (.pure (some session)))
        : ∃ row, Made.selected (sha256Hex platform sid) (some row) ∈ more
            ∧ session = rowToSession row sid := by
      cases sqlSessionStore.get_leads leads with
      | live checked fresh => exact ⟨_, List.mem_append_left _ List.mem_cons_self, rfl⟩
    rw [history]
    cases store with
    | d1 options =>
        obtain ⟨row, inside, same⟩ := sqlRow (get_answer leads)
        exact ⟨row, List.mem_cons_of_mem _ inside, same⟩
    | pg options =>
        obtain ⟨row, inside, same⟩ := sqlRow (get_answer leads)
        exact ⟨row, List.mem_cons_of_mem _ inside, same⟩
    | kv options => contradiction
  obtain ⟨row, recorded, rfl⟩ := row
  obtain ⟨earlier, following, toEarlier, _, reads, _⟩ := reach.made_later_when rest started recorded
  obtain ⟨still, same⟩ := Service.answered_run toEarlier.run revoked
  have newer := rowsNewer sql (run.trans toEarlier)
  have stored : earlier.world.rows.find (sha256Hex platform sid) = some row := by
    have executes := reads.executes
    simp only [sessionService, exec, Made.selected, Statement.run, Option.some.injEq,
      Prod.mk.injEq] at executes
    exact executes.1
  exact newer userId time ⟨index, still, same ▸ called⟩ _ row stored owned

-----------------------------------------------------------------------------------------
-- Played runs
-----------------------------------------------------------------------------------------

/-- Whether a row that is inserted is newer than every finished revocation of its user. -/
def insertsNewer (pool : Sessions) (entry : Entry Op Op.Reply) : Bool :=
  match entry.call.op with
  | .statement (.insertRow row) =>
      pool.log.all (fun made =>
        match made.call, pool.answerOf made.thread with
        | ⟨.called, time⟩, some (.revokeAllForUser userId, _) =>
            userId ≠ row.userId || time < row.createdAt
        | _, _ => true)
  | _ => true

theorem insertsNewer_sound (pool : Sessions) (entry : Entry Op Op.Reply)
    (passes : insertsNewer pool entry = true)
    : InsertsNewer pool entry := by
  rintro row time inserts ⟨index, answered, called⟩
  simp only [insertsNewer, inserts, List.all_eq_true] at passes
  have newer := passes _ (Service.mem_history.mp called)
  simpa [Pool.answerOf_eq_some.mpr answered] using newer

/-- A session is created, all sessions of its user are revoked, and a later login of the user is
still served.
-/
theorem revokeAll_misses_none_played
    : ∃ pool last : Sessions, ∃ session time,
        (sessionService Sample.platform ⟨(· ≤ ·), .strong⟩ Sample.pg).RunWhen InsertsNewer
          (.start Sample.empty) pool
        ∧ pool.Answered 1 (.revokeAllForUser "user_42") .done
        ∧ (sessionService Sample.platform ⟨(· ≤ ·), .strong⟩ Sample.pg).RunWhen InsertsNewer pool last
        ∧ last.Answered 3 (.get Sample.sid) (.found (some session)) ∧ time < session.createdAt := by
  obtain ⟨pool, last, run, rest, checked⟩ := Sample.exists_played_when (· ≤ ·) Sample.pg
    Sample.empty insertsNewer_sound
    (.arrive (.create Sample.input) :: Sample.calls 0 4 { now := 1000, token := Sample.otherSid }
      ++ .arrive (.revokeAllForUser "user_42") :: Sample.calls 1 2 { now := 2000 })
    (.arrive (.create Sample.input) :: Sample.calls 2 4 { now := 3000, token := Sample.sid }
      ++ .arrive (.get Sample.sid) :: Sample.calls 3 3 { now := 4000 })
    (fun pool last => Sample.hasRevokedAll pool 1 "user_42" (fun _ => true)
      && pool.threads.length ≤ 3 && Sample.hasGot last 3 (Option.any (·.userId = "user_42")))
    (by decide +kernel)
  simp only [Bool.and_eq_true, decide_eq_true_eq] at checked
  obtain ⟨⟨revoked, started⟩, got⟩ := checked
  obtain ⟨time, answered, called, _⟩ := Sample.hasRevokedAll_answered revoked
  obtain ⟨found, served, owned⟩ := Sample.hasGot_answered got
  obtain ⟨session, rfl, same⟩ := (Option.any_eq_true ..).mp owned
  have newer := revokeAll_misses_none rfl run answered called rest started served
    (of_decide_eq_true same)
  exact ⟨pool, last, session, time, run, answered, rest, served, newer⟩

/-- A `create` reads the clock, all sessions of its user are revoked a second later, and then the row
is inserted: the session is served although it was created before the revocation was called.
-/
theorem revokeAll_misses_create
    : ∃ pool last : Sessions, ∃ session,
        (sessionService Sample.platform ⟨(· ≤ ·), .strong⟩ Sample.d1).Reachable Sample.empty pool
        ∧ (∃ time, pool.Answered 1 (.revokeAllForUser "user_42") .done
          ∧ ⟨.called, time⟩ ∈ pool.history 1 ∧ session.createdAt ≤ time)
        ∧ (sessionService Sample.platform ⟨(· ≤ ·), .strong⟩ Sample.d1).Run pool last
        ∧ pool.threads.length ≤ 2
        ∧ last.Answered 2 (.get Sample.sid) (.found (some session))
        ∧ session.userId = "user_42" := by
  obtain ⟨pool, last, _, reach, run, _, checked⟩ := Sample.exists_played (· ≤ ·) Sample.d1
    Sample.empty
    (.arrive (.create Sample.input) :: Sample.calls 0 3 { now := 1000, token := Sample.sid }
      ++ .arrive (.revokeAllForUser "user_42") :: Sample.calls 1 2 { now := 2000 })
    (Sample.calls 0 1 { now := 3000 }
      ++ .arrive (.get Sample.sid) :: Sample.calls 2 3 { now := 4000 })
    []
    (fun pool last _ => Sample.hasRevokedAll pool 1 "user_42" (2000 ≤ ·) && pool.threads.length ≤ 2
      && Sample.hasGot last 2
        (Option.any (fun session => session.userId = "user_42" && session.createdAt ≤ 2000)))
    (by decide +kernel)
  simp only [Bool.and_eq_true, decide_eq_true_eq] at checked
  obtain ⟨⟨revoked, started⟩, got⟩ := checked
  obtain ⟨time, answered, called, late⟩ := Sample.hasRevokedAll_answered revoked
  obtain ⟨found, served, owned⟩ := Sample.hasGot_answered got
  obtain ⟨session, rfl, same⟩ := (Option.any_eq_true ..).mp owned
  simp only [Bool.and_eq_true, decide_eq_true_eq] at same late
  exact ⟨pool, last, session, reach, ⟨time, answered, called, same.2.trans late⟩, run, started,
    served, same.1⟩

end WorkersAuth.Stores

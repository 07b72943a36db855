import WorkersAuth.Stores.Deployment
import WorkersAuth.Stores.Quiet

/-! A session that is gone stays gone.
Only `create` stores a session, under an id that is drawn once. So after the `create` of a
session has answered, the first call that deletes it or finds it missing settles what every
later `get` answers, in whatever order the single operations of all calls run.
-/

namespace WorkersAuth.Stores

open Atomic Tables Program

variable {platform : Platform} {guarantees : Guarantees} {store : SessionStore} {start : Storage}
  {sid sidHash : String}

-----------------------------------------------------------------------------------------
-- Gone, and what makes it so
-----------------------------------------------------------------------------------------

/-- Nothing is stored under the hash that a `get` of the store would serve. -/
def SessionStore.Gone : SessionStore → String → Storage → Prop
  | .kv _, sidHash, storage =>
      ∀ record, storage.records.read sidHash storage.kvNow = some record → record.v ≠ recordVersion
  | _, sidHash, storage => storage.rows.find sidHash = none

/-- The calls that leave a session gone: its deletion, and a read that finds nothing to serve. -/
inductive SessionStore.Dismisses : SessionStore → String → Made → Prop
  | d1Deleted {options sidHash} : Dismisses (.d1 options) sidHash (.did (.delete (.row sidHash)) ())
  | d1Missing {options sidHash} : Dismisses (.d1 options) sidHash (.selected sidHash none)
  | pgDeleted {options sidHash} : Dismisses (.pg options) sidHash (.did (.delete (.row sidHash)) ())
  | pgMissing {options sidHash} : Dismisses (.pg options) sidHash (.selected sidHash none)
  | kvDeleted {options sidHash} : Dismisses (.kv options) sidHash (.did (.delete (.record sidHash)) ())
  | kvMissing {options sidHash} : Dismisses (.kv options) sidHash (.gotRecord sidHash none)
  | kvVersion {options sidHash record} (other : record.v ≠ recordVersion)
    : Dismisses (.kv options) sidHash (.gotRecord sidHash (some record))

/-- The read that a served session comes from. -/
def SessionStore.Serves : SessionStore → String → Made → Prop
  | .kv _, sidHash, made =>
      ∃ record, made = .gotRecord sidHash (some record) ∧ record.v = recordVersion
  | _, sidHash, made => ∃ row, made = .selected sidHash (some row)

/-- A session that is gone stays gone unless one is stored under its hash. -/
theorem SessionStore.Gone.step {op : Op} {reply : op.Reply} {before after : Storage}
    (gone : store.Gone sidHash before) (executes : exec platform guarantees op before reply after)
    (other : op.stores ≠ some sidHash)
    : store.Gone sidHash after := by
  have rows (absent : before.rows.find sidHash = none) : after.rows.find sidHash = none := by
    cases stored : after.rows.find sidHash with
    | none => rfl
    | some row =>
        cases rowMove executes stored with
        | kept found => rw [absent] at found; contradiction
        | inserted same free => exact absurd (congrArg some same) other
        | touched found live changed => rw [absent] at found; contradiction
  cases store with
  | d1 options => exact rows gone
  | pg options => exact rows gone
  | kv options =>
      intro record readable
      obtain ⟨pair, stored, fresh, same⟩ := KvSpace.read_eq_some.mp readable
      rcases recordMove executes stored with old | ⟨added, ttl, rfl, _⟩
      · exact gone record
          (KvSpace.read_eq_some.mpr ⟨pair, old, lt_of_le_of_lt (kvNow_le executes) fresh, same⟩)
      · exact absurd rfl other

/-- After a dismissal the session is gone, by cases on the dismissal. -/
theorem SessionStore.Dismisses.gone {made : Made} {before after : Storage}
    (strong : guarantees.consistency = .strong) (dismisses : store.Dismisses sidHash made)
    (executes : exec platform guarantees made.op before made.ret after)
    : store.Gone sidHash after := by
  have deleted (ran : exec platform guarantees (.statement (.delete (.row sidHash))) before () after)
      : after.rows.find sidHash = none := by
    cases ran
    simp only [Storage.delete, Table.find_deleteWhere]
    cases found : before.rows.find sidHash with
    | none => rfl
    | some row => simp [Option.filter, Table.key_of_find found]
  have missing
      (ran : exec platform guarantees (.statement (.selectRow sidHash)) before none after)
      : after.rows.find sidHash = none := by
    simp only [exec, Statement.run, Option.some.injEq, Prod.mk.injEq] at ran
    exact ran.2 ▸ ran.1
  have read {found : Option StoredSession}
      (ran : exec platform guarantees (.kv (.getRecord sidHash)) before found after)
      : after.records.read sidHash after.kvNow = found := by
    obtain ⟨time, _, rfl, answers⟩ := ran
    simp only [strong, KvSpace.MayRead] at answers
    exact answers.symm
  cases dismisses with
  | d1Deleted => exact deleted executes
  | d1Missing => exact missing executes
  | pgDeleted => exact deleted executes
  | pgMissing => exact missing executes
  | kvDeleted =>
      cases executes
      intro record readable
      obtain ⟨pair, stored, _⟩ := KvSpace.read_eq_some.mp readable
      simp [Storage.delete] at stored
  | kvMissing =>
      intro record readable
      rw [read executes] at readable
      contradiction
  | kvVersion other =>
      intro record readable
      rw [read executes] at readable
      cases readable
      exact other

/-- A session that is gone is not read. -/
theorem SessionStore.Gone.not_serves {made : Made} {before after : Storage}
    (strong : guarantees.consistency = .strong) (gone : store.Gone sidHash before)
    (executes : exec platform guarantees made.op before made.ret after)
    : ¬store.Serves sidHash made := by
  intro serves
  have row (absent : before.rows.find sidHash = none)
      (serves : ∃ row, made = .selected sidHash (some row)) : False := by
    obtain ⟨row, rfl⟩ := serves
    simp only [exec, Made.selected, Statement.run, Option.some.injEq, Prod.mk.injEq] at executes
    rw [absent] at executes
    obtain ⟨impossible, _⟩ := executes
    cases impossible
  cases store with
  | d1 options => exact row gone serves
  | pg options => exact row gone serves
  | kv options =>
      obtain ⟨record, rfl, known⟩ := serves
      obtain ⟨time, forward, _, answers⟩ := executes
      simp only [Made.gotRecord, strong, KvSpace.MayRead] at answers
      obtain ⟨pair, stored, fresh, same⟩ := KvSpace.read_eq_some.mp answers.symm
      exact gone record
        (KvSpace.read_eq_some.mpr ⟨pair, stored, lt_of_le_of_lt forward fresh, same⟩) known

-----------------------------------------------------------------------------------------
-- What the traces of calls contain
-----------------------------------------------------------------------------------------

/-- A trace of both reads contains each of them. -/
theorem mem_of_readBoth {calls : List Made} {record : Option StoredSession} {seen : Option SeenMarker}
    (leads : (kvSessionStore.readBoth sidHash).Leads calls (.pure (record, seen)))
    : Made.gotRecord sidHash record ∈ calls ∧ Made.gotSeen sidHash seen ∈ calls := by
  obtain ⟨first, rfl⟩ := kvSessionStore.readBoth_leads leads
  cases first <;> simp

/-- A trace of `forget` gets rid of the record and of the marker. -/
theorem mem_of_forget {calls : List Made} {executionCtx : Bool}
    (leads : (kvSessionStore.forget executionCtx sidHash).Leads calls (.pure ()))
    : Made.settled executionCtx (.record sidHash) ∈ calls
      ∧ Made.settled executionCtx (.seen sidHash) ∈ calls := by
  obtain ⟨first, rfl⟩ := kvSessionStore.forget_leads leads
  cases first <;> simp

/-- A session comes from a read that serves it. -/
theorem serves_of_get {calls : List Made} {session : Session}
    (leads : (store.get platform sid).Leads calls (.pure (some session)))
    : ∃ made ∈ calls, store.Serves (sha256Hex platform sid) made := by
  have sql {revocation : Option RevocationList} {executionCtx : Bool}
      (leads : (sqlSessionStore.get platform revocation executionCtx sid).Leads calls
        (.pure (some session)))
      : ∃ made ∈ calls, ∃ row, made = Made.selected (sha256Hex platform sid) (some row) := by
    cases sqlSessionStore.get_leads leads with
    | live checked fresh => exact ⟨_, List.mem_append_left _ List.mem_cons_self, _, rfl⟩
  cases store with
  | d1 options => exact sql leads
  | pg options => exact sql leads
  | kv options =>
      cases kvSessionStore.get_leads leads with
      | live read known fresh checked =>
          exact ⟨_, List.mem_append_left _ (mem_of_readBoth read).1, _, rfl, known⟩

/-- Without a revocation list and with deletions awaited, a refusal rests on a dismissal. -/
theorem dismisses_of_get {calls : List Made} (alone : store.revocation = none)
    (awaits : store.executionCtx = false)
    (leads : (store.get platform sid).Leads calls (.pure none))
    : ∃ made ∈ calls, store.Dismisses (sha256Hex platform sid) made := by
  cases store with
  | d1 options =>
      obtain ⟨revocation, executionCtx⟩ := options
      cases alone
      cases awaits
      cases sqlSessionStore.get_leads leads with
      | missing => exact ⟨_, List.mem_cons_self, .d1Missing⟩
      | revoked checked => nomatch (leads_pure.mp checked).2
      | expired checked expired => exact ⟨.did (.delete (.row _)) (), by simp [Made.settled, Made.did], .d1Deleted⟩
  | pg options =>
      obtain ⟨executionCtx⟩ := options
      cases awaits
      cases sqlSessionStore.get_leads leads with
      | missing => exact ⟨_, List.mem_cons_self, .pgMissing⟩
      | revoked checked => nomatch (leads_pure.mp checked).2
      | expired checked expired => exact ⟨.did (.delete (.row _)) (), by simp [Made.settled, Made.did], .pgDeleted⟩
  | kv options =>
      change options.revocation = none at alone
      change options.executionCtx = false at awaits
      cases kvSessionStore.get_leads leads with
      | missing read => exact ⟨_, (mem_of_readBoth read).1, .kvMissing⟩
      | version read other => exact ⟨_, (mem_of_readBoth read).1, .kvVersion other⟩
      | expired read known expired forgot =>
          rw [awaits] at forgot
          refine ⟨_, ?_, .kvDeleted⟩
          exact List.mem_append_right _ (List.mem_cons_of_mem _ (mem_of_forget forgot).1)
      | revoked read known fresh checked =>
          rw [alone] at checked
          nomatch (leads_pure.mp checked).2

/-- A `revoke` makes a dismissal. -/
theorem dismisses_of_revoke {calls : List Made}
    (leads : (store.revoke platform sid).Leads calls (.pure ()))
    : ∃ made ∈ calls, store.Dismisses (sha256Hex platform sid) made := by
  cases store with
  | d1 options =>
      obtain ⟨_, _, rfl⟩ := sqlSessionStore.revoke_leads leads
      exact ⟨_, List.mem_append_right _ List.mem_cons_self, .d1Deleted⟩
  | pg options =>
      obtain ⟨_, _, rfl⟩ := sqlSessionStore.revoke_leads leads
      exact ⟨_, List.mem_append_right _ List.mem_cons_self, .pgDeleted⟩
  | kv options =>
      obtain ⟨_, _, _, _, forgot, rfl⟩ := kvSessionStore.revoke_leads leads
      exact ⟨_, List.mem_append_right _ (mem_of_forget forgot).1, .kvDeleted⟩

/-- A `create` that answered a session drew its id. -/
theorem drew_of_create {calls : List Made} {input : NewSession} {session : Session}
    (leads : (store.create platform input).Leads calls (.pure (.ok session)))
    : Made.drew session.sid ∈ calls := by
  cases store with
  | d1 options =>
      cases sqlSessionStore.create_leads leads with
      | created good => simp [rowToSession]
  | pg options =>
      cases sqlSessionStore.create_leads leads with
      | created good => simp [rowToSession]
  | kv options =>
      cases kvSessionStore.create_leads leads with
      | created good => simp [StoredSession.toSession]

-----------------------------------------------------------------------------------------
-- Runs
-----------------------------------------------------------------------------------------

abbrev Sessions : Type := Pool Op Op.Reply Storage Request Answer

variable {pool later last : Sessions}

/-- A call that stores no session under a hash. -/
def StoresOther (sidHash : String) (_ : Sessions) (entry : Entry Op Op.Reply) : Prop :=
  entry.call.op.stores ≠ some sidHash

/-- After the `create` of a session has answered, no session is stored under its hash again. -/
theorem storesOther_after_create
    (reach : (sessionService platform guarantees store).Reachable start pool) {index : Nat}
    {input : NewSession} {session : Session}
    (created : pool.Answered index (.create input) (.created (.ok session)))
    (run : (sessionService platform guarantees store).Run pool later)
    : (sessionService platform guarantees store).RunWhen
        (StoresOther (sha256Hex platform session.sid)) pool later := by
  obtain ⟨_, more, history, leads⟩ := service_leads (reach.leads_answered created)
  have drew : Made.drew session.sid ∈ pool.history index :=
    history ▸ List.mem_cons_of_mem _ (drew_of_create (create_answer leads))
  induction run with
  | refl => exact .refl
  | tail before step ih =>
      refine ih.tail ?_
      cases step with
      | arrive request => exact .arrive request
      | perform performs =>
          refine .perform (fun stores => ?_) performs
          obtain ⟨request, rest, _, trace⟩ := performs.leads (reach.run before)
          obtain ⟨_, sid, _, drawn, new⟩ := drew_of_stores trace (by simp [stores])
          exact reach.not_drawn_by_writer sessionIds_fresh created drew rfl before performs drawn
            (new.stores.symm.trans stores)

/-- A session that is gone stays gone along a run that stores none under its hash. -/
theorem gone_run (run : (sessionService platform guarantees store).RunWhen (StoresOther sidHash) pool later)
    (gone : store.Gone sidHash pool.world)
    : store.Gone sidHash later.world := by
  induction run with
  | refl => exact gone
  | tail _ step ih =>
      cases step with
      | arrive request => exact ih
      | perform other performs => exact ih.step performs.executes other

/-- After the `create` of a session has answered, once a later call has made a dismissal of it,
every `get` of it that starts after that answers null.
-/
theorem null_after_dismissal (strong : guarantees.consistency = .strong)
    (reach : (sessionService platform guarantees store).Reachable start pool) {index : Nat}
    {input : NewSession} {session : Session}
    (created : pool.Answered index (.create input) (.created (.ok session)))
    (run : (sessionService platform guarantees store).Run pool later) {ender : Nat}
    (after : pool.threads.length ≤ ender) {made : Made} (recorded : made ∈ later.history ender)
    (dismisses : store.Dismisses (sha256Hex platform session.sid) made)
    (rest : (sessionService platform guarantees store).Run later last) {reader : Nat}
    (started : later.threads.length ≤ reader) {answer : Option Session}
    (answered : last.Answered reader (.get session.sid) (.found answer))
    : answer = none := by
  cases answer with
  | none => rfl
  | some served =>
      have others := storesOther_after_create reach created run
      obtain ⟨_, following, _, _, performs, toLater⟩ := reach.made_later_when others after recorded
      have gone := gone_run toLater (dismisses.gone strong performs.executes)
      have reached := reach.run run
      obtain ⟨_, more, history, leads⟩ :=
        service_leads ((reached.run rest).leads_answered answered)
      obtain ⟨read, inside, serves⟩ := serves_of_get (get_answer leads)
      have quiet := storesOther_after_create reached (Service.answered_run run created).1 rest
      obtain ⟨earlier, _, toEarlier, _, reads, _⟩ :=
        reached.made_later_when quiet started (history ▸ List.mem_cons_of_mem _ inside)
      exact absurd serves ((gone_run toEarlier gone).not_serves strong reads.executes)

/-- KV logout beats every racing touch. Once a `revoke` of a session returned by an answered
`create` has answered, every `get` of it that starts later answers null, on strongly
consistent KV, whatever the clocks show and whatever other calls are in flight.
-/
theorem kvLogout_final {options : KvSessionStoreOptions} {clock : Millis → Millis → Prop}
    (reach : (sessionService platform ⟨clock, .strong⟩ (.kv options)).Reachable start pool)
    {creator : Nat} {input : NewSession} {session : Session}
    (created : pool.Answered creator (.create input) (.created (.ok session)))
    (run : (sessionService platform ⟨clock, .strong⟩ (.kv options)).Run pool later) {revoker : Nat}
    (called : pool.threads.length ≤ revoker)
    (revoked : later.Answered revoker (.revoke session.sid) .done)
    (rest : (sessionService platform ⟨clock, .strong⟩ (.kv options)).Run later last) {reader : Nat}
    (started : later.threads.length ≤ reader) {answer : Option Session}
    (answered : last.Answered reader (.get session.sid) (.found answer))
    : answer = none := by
  obtain ⟨_, more, history, leads⟩ := service_leads ((reach.run run).leads_answered revoked)
  obtain ⟨made, inside, dismisses⟩ := dismisses_of_revoke (revoke_answer leads)
  have recorded : made ∈ later.history revoker := history ▸ List.mem_cons_of_mem _ inside
  exact null_after_dismissal rfl reach created run called recorded dismisses rest started answered

/-- A touch that is under way when the session is revoked writes its marker afterwards, and the
session stays refused.
-/
theorem kvLogout_final_played
    : ∃ pool later last : Sessions, ∃ input session answer,
        (sessionService Sample.platform ⟨anyClock, .strong⟩ Sample.kv).Reachable Sample.empty pool
        ∧ pool.Answered 0 (.create input) (.created (.ok session))
        ∧ (sessionService Sample.platform ⟨anyClock, .strong⟩ Sample.kv).Run pool later
        ∧ later.Answered 2 (.revoke session.sid) .done
        ∧ (sessionService Sample.platform ⟨anyClock, .strong⟩ Sample.kv).Run later last
        ∧ last.Answered 3 (.get session.sid) (.found answer) ∧ answer = none := by
  obtain ⟨pool, later, last, reach, run, rest, checked⟩ := Sample.exists_played anyClock Sample.kv Sample.empty
    Sample.created
    (.arrive (.touch 0 Sample.sid 7200000) :: Sample.calls 1 3 { now := 1000 }
      ++ .arrive (.revoke Sample.sid) :: Sample.calls 2 5 { now := 2000 })
    (Sample.calls 1 1 { now := 3000 }
      ++ .arrive (.get Sample.sid) :: Sample.calls 3 4 { now := 4000 })
    (fun pool later last => Sample.hasCreated pool 0 && Sample.hasRevoked later 2
      && (pool.threads.length ≤ 2 && later.threads.length ≤ 3) && Sample.hasGot last 3 Option.isNone)
    (by decide +kernel)
  simp only [Bool.and_eq_true, decide_eq_true_eq] at checked
  obtain ⟨⟨⟨created, revoked⟩, called, started⟩, got⟩ := checked
  obtain ⟨input, session, answered, same⟩ := Sample.hasCreated_answered created
  obtain ⟨answer, found, _⟩ := Sample.hasGot_answered got
  have ended : later.Answered 2 (.revoke session.sid) .done := same ▸ Sample.hasRevoked_answered revoked
  have refused := kvLogout_final reach answered run called ended rest started (same ▸ found)
  exact ⟨pool, later, last, input, session, answer, reach, answered, run, ended, rest, same ▸ found, refused⟩

/-- A session id that was refused once stays refused. For each store without revocation list and
without `executionCtx`, on strongly consistent KV, once a `get` of a session returned by an
answered `create` has answered null, every `get` of it that starts later answers null,
whatever the clocks of the calls show.
-/
theorem refusal_final {clock : Millis → Millis → Prop} (alone : store.revocation = none)
    (awaits : store.executionCtx = false)
    (reach : (sessionService platform ⟨clock, .strong⟩ store).Reachable start pool)
    {creator : Nat} {input : NewSession} {session : Session}
    (created : pool.Answered creator (.create input) (.created (.ok session)))
    (run : (sessionService platform ⟨clock, .strong⟩ store).Run pool later) {refuser : Nat}
    (called : pool.threads.length ≤ refuser)
    (refused : later.Answered refuser (.get session.sid) (.found none))
    (rest : (sessionService platform ⟨clock, .strong⟩ store).Run later last) {reader : Nat}
    (started : later.threads.length ≤ reader) {answer : Option Session}
    (answered : last.Answered reader (.get session.sid) (.found answer))
    : answer = none := by
  obtain ⟨_, more, history, leads⟩ := service_leads ((reach.run run).leads_answered refused)
  obtain ⟨made, inside, dismisses⟩ := dismisses_of_get alone awaits (get_answer leads)
  have recorded : made ∈ later.history refuser := history ▸ List.mem_cons_of_mem _ inside
  exact null_after_dismissal rfl reach created run called recorded dismisses rest started answered

/-- On D1 a touch that read its clock before the expiry updates after the refusal, and the session
stays refused.
-/
theorem refusal_final_played
    : ∃ pool later last : Sessions, ∃ input session answer,
        (sessionService Sample.platform ⟨anyClock, .strong⟩ Sample.d1).Reachable Sample.empty pool
        ∧ pool.Answered 0 (.create input) (.created (.ok session))
        ∧ (sessionService Sample.platform ⟨anyClock, .strong⟩ Sample.d1).Run pool later
        ∧ later.Answered 2 (.get session.sid) (.found none)
        ∧ (sessionService Sample.platform ⟨anyClock, .strong⟩ Sample.d1).Run later last
        ∧ last.Answered 3 (.get session.sid) (.found answer) ∧ answer = none := by
  obtain ⟨pool, later, last, reach, run, rest, checked⟩ := Sample.exists_played anyClock Sample.d1 Sample.empty
    Sample.created
    (.arrive (.touch 0 Sample.sid 7200000) :: Sample.calls 1 2 { now := 3599000 }
      ++ .arrive (.get Sample.sid) :: Sample.calls 2 4 { now := 3600000 })
    (Sample.calls 1 1 { now := 3600000 }
      ++ .arrive (.get Sample.sid) :: Sample.calls 3 2 { now := 3600000 })
    (fun pool later last => Sample.hasCreated pool 0 && Sample.hasGot later 2 Option.isNone
      && (pool.threads.length ≤ 2 && later.threads.length ≤ 3) && Sample.hasGot last 3 Option.isNone)
    (by decide +kernel)
  simp only [Bool.and_eq_true, decide_eq_true_eq] at checked
  obtain ⟨⟨⟨created, refused⟩, called, started⟩, got⟩ := checked
  obtain ⟨input, session, answered, same⟩ := Sample.hasCreated_answered created
  obtain ⟨first, refusal, absent⟩ := Sample.hasGot_answered refused
  obtain ⟨answer, found, _⟩ := Sample.hasGot_answered got
  obtain rfl : first = none := by simpa using absent
  have final := refusal_final rfl rfl reach answered run called (same ▸ refusal) rest started
    (same ▸ found)
  exact ⟨pool, later, last, input, session, answer, reach, answered, run, same ▸ refusal, rest,
    same ▸ found, final⟩

end WorkersAuth.Stores

import WorkersAuth.Stores.OneAtATime
import WorkersAuth.Stores.Refusal

/-! Where the fields of a stored session come from.
Only a `create` stores a session, and no operation changes whom a session is for, its scope or
its metadata. So whatever a `get` answers for the id that a `create` returned has these
fields as that `create` was given them, in whatever order the operations of all calls run.
-/

namespace WorkersAuth.Stores

open Atomic Tables Program

-----------------------------------------------------------------------------------------
-- The fields that no operation changes
-----------------------------------------------------------------------------------------

/-- The fields of a session that stay as `create` was given them. -/
structure SessionFacts where
  userId : String
  subjectType : SubjectType
  scope : Option SessionScope
  metadata : Option JsonObject

def NewSession.facts (input : NewSession) : SessionFacts := { input with }

def SessionRow.facts (row : SessionRow) : SessionFacts := { row with }

def StoredSession.facts (record : StoredSession) : SessionFacts := { record with }

def Session.facts (session : Session) : SessionFacts := { session with }

variable {platform : Platform} {guarantees : Guarantees} {store : SessionStore} {moment : Millis}
  {sid sidHash : String}

/-- KV has been given what it was given before, and what the operation puts. -/
theorem writtenMove {op : Op} {reply : op.Reply} {before after : Storage}
    (executes : exec platform guarantees op before reply after) {pair : KvPair StoredSession}
    (member : pair ∈ after.records.written)
    : pair ∈ before.records.written
      ∨ ∃ expirationTtl, op = .kv (.putRecord pair.key pair.value expirationTtl) := by
  cases op with
  | called => obtain ⟨_, rfl⟩ := executes; exact .inl member
  | clock => obtain ⟨_, rfl⟩ := executes; exact .inl member
  | listClock => obtain ⟨_, rfl⟩ := executes; exact .inl member
  | randomToken => obtain ⟨_, rfl⟩ := executes; exact .inl member
  | recordFirst => cases executes; exact .inl member
  | statement query => exact .inl ((Statement.framed executes).written.1 ▸ member)
  | kv call =>
      obtain ⟨time, _, rfl, _⟩ := executes
      cases call with
      | putRecord key record expirationTtl =>
          rcases List.mem_cons.mp member with rfl | old
          · exact .inr ⟨expirationTtl, rfl⟩
          · exact .inl old
      | _ => exact .inl member

/-- What KV has now it has been given, before the operation as after it. -/
theorem written_current {op : Op} {reply : op.Reply} {before after : Storage}
    (executes : exec platform guarantees op before reply after)
    (written : ∀ sidHash pair,
      before.records.current.find sidHash = some pair → pair ∈ before.records.written)
    : ∀ sidHash pair, after.records.current.find sidHash = some pair → pair ∈ after.records.written := by
  intro sidHash pair stored
  cases op with
  | called => obtain ⟨_, rfl⟩ := executes; exact written _ _ stored
  | clock => obtain ⟨_, rfl⟩ := executes; exact written _ _ stored
  | listClock => obtain ⟨_, rfl⟩ := executes; exact written _ _ stored
  | randomToken => obtain ⟨_, rfl⟩ := executes; exact written _ _ stored
  | recordFirst => cases executes; exact written _ _ stored
  | statement query =>
      have framed := Statement.framed executes
      obtain ⟨deletion, records, _⟩ := framed.kv
      exact framed.written.1 ▸ written _ _ (find_kv_delete.1 pair (records ▸ stored))
  | kv call =>
      obtain ⟨time, _, rfl, _⟩ := executes
      cases call with
      | putRecord key record expirationTtl => exact KvSpace.mem_written_put written stored
      | _ => exact written _ _ stored

-----------------------------------------------------------------------------------------
-- What is stored, and by which call
-----------------------------------------------------------------------------------------

variable {pool later : Sessions}

/-- A `create` with these facts has drawn an id with this hash. -/
def CreatedFor (platform : Platform) (pool : Sessions) (sidHash : String) (facts : SessionFacts)
    : Prop :=
  ∃ index input sid, pool.requestOf index = some (.create input)
    ∧ Made.drew sid ∈ pool.history index ∧ sha256Hex platform sid = sidHash
    ∧ NewSession.facts input = facts

/-- Everything stored has the facts of the `create` that has drawn its id. -/
structure Provenance (platform : Platform) (pool : Sessions) : Prop where
  rows : ∀ sidHash row, pool.world.rows.find sidHash = some row →
    CreatedFor platform pool sidHash (SessionRow.facts row)
  records : ∀ pair ∈ pool.world.records.written,
    CreatedFor platform pool pair.key (StoredSession.facts pair.value)
  current : ∀ sidHash pair,
    pool.world.records.current.find sidHash = some pair → pair ∈ pool.world.records.written

/-- What a `create` has done stays done. -/
theorem CreatedFor.run {facts : SessionFacts} (created : CreatedFor platform pool sidHash facts)
    (run : (sessionService platform guarantees store).Run pool later)
    : CreatedFor platform later sidHash facts := by
  obtain ⟨index, input, sid, serves, drew, hash, same⟩ := created
  exact ⟨index, input, sid, Service.requestOf_run run serves, Service.mem_history_run run drew, hash,
    same⟩

/-- A call that stores a session stores it with the facts of its `create`. -/
theorem createdFor_of_stores {entry : Entry Op Op.Reply} {next : Sessions}
    (reach : (sessionService platform guarantees store).Reachable (.empty moment) pool)
    (performs : (sessionService platform guarantees store).Performs pool entry next)
    (stores : entry.call.op.stores ≠ none)
    : ∃ input sid, entry.call.op.StoresNew platform input sid
        ∧ CreatedFor platform pool (sha256Hex platform sid) (NewSession.facts input) := by
  obtain ⟨request, rest, serves, leads⟩ := performs.leads reach
  obtain ⟨input, sid, rfl, drew, new⟩ := drew_of_stores leads stores
  exact ⟨input, sid, new, entry.thread, input, sid, serves, drew, rfl, rfl⟩

/-- One call keeps the provenance of everything stored. -/
theorem Provenance.perform {entry : Entry Op Op.Reply} {next : Sessions}
    (provenance : Provenance platform pool)
    (reach : (sessionService platform guarantees store).Reachable (.empty moment) pool)
    (performs : (sessionService platform guarantees store).Performs pool entry next)
    : Provenance platform next := by
  have after {hash : String} {facts : SessionFacts} (created : CreatedFor platform pool hash facts)
      : CreatedFor platform next hash facts :=
    created.run (show (sessionService platform guarantees store).Run pool next from
      .single (.perform performs))
  obtain ⟨thread, op, reply⟩ := entry
  have executes : exec platform guarantees op pool.world reply next.world := performs.executes
  refine ⟨fun sidHash row stored => ?_, fun pair member => ?_, written_current executes provenance.current⟩
  · cases rowMove executes stored with
    | kept found => exact after (provenance.rows _ _ found)
    | inserted same free =>
        obtain ⟨input, sid, new, created⟩ := createdFor_of_stores reach performs (by simp [Op.stores])
        cases new
        exact same ▸ after created
    | touched found live changed =>
        cases changed
        have kept := after (provenance.rows _ _ found)
        exact kept
  · obtain ⟨key, value, expiresAt⟩ := pair
    rcases writtenMove executes member with old | ⟨expirationTtl, rfl⟩
    · exact after (provenance.records _ old)
    · obtain ⟨input, sid, new, created⟩ := createdFor_of_stores reach performs (by simp [Op.stores])
      cases new
      exact after created

/-- Everything stored comes from a `create`, in every state that is reached; by induction on the
run.
-/
theorem provenance
    (reach : (sessionService platform guarantees store).Reachable (.empty moment) pool)
    : Provenance platform pool := by
  induction reach with
  | refl =>
      exact ⟨by simp [Pool.start, Storage.empty], by simp [Pool.start, Storage.empty, KvSpace.empty],
        by simp [Pool.start, Storage.empty, KvSpace.empty]⟩
  | @tail before after reached step ih =>
      cases step with
      | arrive request =>
          have later {hash : String} {facts : SessionFacts} (created : CreatedFor platform before hash facts)
              : CreatedFor platform _ hash facts :=
            created.run (show (sessionService platform guarantees store).Run before _ from
              .single (.arrive request))
          exact ⟨fun sidHash row stored => later (ih.rows sidHash row stored),
            fun pair member => later (ih.records pair member), ih.current⟩
      | perform performs => exact ih.perform reached performs

-----------------------------------------------------------------------------------------
-- What a `get` answers
-----------------------------------------------------------------------------------------

/-- The session a `get` answers has the facts of the row or record it comes from. -/
theorem facts_of_get {calls : List Made} {session : Session}
    (leads : (store.get platform sid).Leads calls (.pure (some session)))
    : session.sid = sid
      ∧ ((∃ row, Made.selected (sha256Hex platform sid) (some row) ∈ calls
            ∧ SessionRow.facts row = Session.facts session)
        ∨ ∃ record, Made.gotRecord (sha256Hex platform sid) (some record) ∈ calls
            ∧ StoredSession.facts record = Session.facts session) := by
  have sql {revocation : Option RevocationList} {executionCtx : Bool}
      (leads : (sqlSessionStore.get platform revocation executionCtx sid).Leads calls
        (.pure (some session)))
      : session.sid = sid ∧ ∃ row, Made.selected (sha256Hex platform sid) (some row) ∈ calls
          ∧ SessionRow.facts row = Session.facts session := by
    cases sqlSessionStore.get_leads leads with
    | live checked fresh =>
        exact ⟨rfl, _, List.mem_append_left _ List.mem_cons_self, rfl⟩
  cases store with
  | d1 options => exact (sql leads).imp_right .inl
  | pg options => exact (sql leads).imp_right .inl
  | kv options =>
      cases kvSessionStore.get_leads leads with
      | live read known fresh checked =>
          exact ⟨rfl, .inr ⟨_, List.mem_append_left _ (mem_of_readBoth read).1, rfl⟩⟩

/-- The one `create` behind an id. -/
theorem CreatedFor.facts_eq {index : Nat} {input : NewSession} {facts : SessionFacts}
    (created : CreatedFor platform pool (sha256Hex platform sid) facts)
    (reach : (sessionService platform guarantees store).Reachable (.empty moment) pool)
    (serves : pool.requestOf index = some (.create input)) (drew : Made.drew sid ∈ pool.history index)
    : facts = NewSession.facts input := by
  obtain ⟨other, made, drawn, requested, drew_other, hash, rfl⟩ := created
  have same : other = index :=
    reach.drawn_once sessionIds_fresh drew_other drew (congrArg some hash) rfl
  subst same
  cases requested.symm.trans serves
  rfl

/-- What any `get` answers for the id of a session that a `create` answered is for whom, of the
scope and with the metadata that `create` was given.
-/
theorem get_carries
    (reach : (sessionService platform guarantees store).Reachable (.empty moment) pool)
    {creator reader : Nat} {input : NewSession} {session found : Session}
    (created : pool.Answered creator (.create input) (.created (.ok session)))
    (got : pool.Answered reader (.get session.sid) (.found (some found)))
    : found.sid = session.sid ∧ Session.facts found = NewSession.facts input := by
  obtain ⟨_, making, created_history, creates⟩ := service_leads (reach.leads_answered created)
  obtain ⟨_, reading, read_history, gets⟩ := service_leads (reach.leads_answered got)
  have drew : Made.drew session.sid ∈ pool.history creator :=
    created_history ▸ List.mem_cons_of_mem _ (drew_of_create (create_answer creates))
  have serves : pool.requestOf creator = some (.create input) := by
    rw [Pool.requestOf, created]
    rfl
  have traced {call : Made} {facts : SessionFacts} (made : call ∈ reading)
      (stored : ∀ earlier following : Sessions,
        (sessionService platform guarantees store).Reachable (.empty moment) earlier →
        (sessionService platform guarantees store).Performs earlier ⟨reader, call⟩ following →
        CreatedFor platform earlier (sha256Hex platform session.sid) facts)
      : facts = NewSession.facts input := by
    have recorded : call ∈ pool.history reader := read_history ▸ List.mem_cons_of_mem _ made
    obtain ⟨front, back, split⟩ := List.append_of_mem (Service.mem_history.mp recorded)
    obtain ⟨earlier, following, reached, _, performs, run⟩ := reach.at_entry split
    have since : (sessionService platform guarantees store).Run earlier pool :=
      .head (.perform performs) run
    exact ((stored earlier following reached performs).run since).facts_eq reach serves drew
  obtain ⟨same, ⟨row, made, facts⟩ | ⟨record, made, facts⟩⟩ := facts_of_get (get_answer gets)
  · refine ⟨same, facts ▸ traced made (fun earlier following reached performs => ?_)⟩
    have executes := performs.executes
    simp only [sessionService, exec, Made.selected, Statement.run, Option.some.injEq,
      Prod.mk.injEq] at executes
    exact (provenance reached).rows _ _ executes.1
  · refine ⟨same, facts ▸ traced made (fun earlier following reached performs => ?_)⟩
    obtain ⟨time, _, _, answers⟩ := performs.executes
    obtain ⟨pair, member, key, value⟩ := answers.written (provenance reached).current
    exact key ▸ value ▸ (provenance reached).records pair member

end WorkersAuth.Stores

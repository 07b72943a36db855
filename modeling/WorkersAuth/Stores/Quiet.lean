import WorkersAuth.Stores.Traces

/-! Which functions of a store can write a session or extend one.
An operation is quiet when it stores no session, draws no id and moves no idle window. Only
`create` and `touch` make operations that are not quiet, so a session that is gone comes
back through nothing else. Only `revoke` and `revokeAllForUser` write to the revocation list.
-/

namespace WorkersAuth.Stores

open Atomic Tables Program

/-- The operation stores no session, draws no id and moves no idle window. -/
@[simp] def Op.quiet : Op → Bool
  | .statement (.insertRow _) => false
  | .statement (.touchRow ..) => false
  | .kv (.putRecord ..) => false
  | .kv (.putSeen ..) => false
  | .randomToken => false
  | _ => true

/-- The operation writes to the revocation list. -/
@[simp] def Op.lists : Op → Bool
  | .statement (.upsertTombstone ..) => true
  | .statement (.upsertUserMarker ..) => true
  | .statement (.deleteRevocations ..) => true
  | _ => false

/-- A program of quiet operations. -/
abbrev Quiet {α : Type} (task : Task α) : Prop := task.Within (fun op => op.quiet)

/-- A program of quiet operations that leaves the revocation list alone. -/
abbrev Plain {α : Type} (task : Task α) : Prop :=
  task.Within (fun op => op.quiet && !op.lists)

theorem Plain.quiet {α : Type} {task : Task α} (plain : Plain task) : Quiet task :=
  plain.mono (fun _ both => ((Bool.and_eq_true ..).mp both).1)

theorem Op.stores_of_quiet {op : Op} (quiet : op.quiet = true) : op.stores = none := by
  cases op with
  | statement query => cases query <;> simp_all [Op.stores]
  | kv call => cases call <;> simp_all [Op.stores]
  | _ => rfl

variable {platform : Platform} {revocation : Option RevocationList} {executionCtx : Bool}
  {sid sidHash userId : String}

/-- An answer makes no operation. -/
theorem plain_return {α : Type} (answer : α) : Plain (Pure.pure answer : Task α) := trivial

theorem plain_checkRevoked {createdAt : Millis}
    : Plain (checkRevoked revocation sidHash userId createdAt) := by
  cases revocation <;> simp [checkRevoked, revocationList.isRevoked]

theorem plain_settle {deletion : Deletion} : Plain (settle executionCtx deletion) := by
  cases executionCtx <;> simp [settle]

theorem plain_cutoffOr {cutoff : Option Millis} : Plain (cutoffOr cutoff) := by
  cases cutoff <;> simp [cutoffOr]

/-- `get` of the SQL stores only reads and deletes. -/
theorem plain_sqlGet : Plain (sqlSessionStore.get platform revocation executionCtx sid) := by
  refine .perform rfl (fun found => ?_)
  cases found with
  | none => exact plain_return _
  | some row =>
      refine plain_checkRevoked.bind (fun revoked => ?_)
      cases revoked with
      | true => exact plain_return _
      | false =>
          refine .perform rfl (fun readAt => ?_)
          cases row.expired readAt with
          | true => exact plain_settle.bind (fun _ => plain_return _)
          | false => exact plain_return _

/-- The revocations of the SQL stores store nothing. -/
theorem quiet_sqlRevoke : Quiet (sqlSessionStore.revoke platform revocation sid) := by
  refine Within.bind ?_ (fun _ => within_perform _ _ |>.mpr rfl)
  cases revocation with
  | none => trivial
  | some list =>
      refine .perform rfl (fun found => ?_)
      cases found with
      | none => trivial
      | some row => simp [revocationList.revoke]

theorem quiet_sqlRevokeAllForUser : Quiet (sqlSessionStore.revokeAllForUser revocation userId) := by
  refine Within.bind ?_ (fun _ => within_perform _ _ |>.mpr rfl)
  cases revocation with
  | none => trivial
  | some list => simp [sqlSessionStore.markUser, revocationList.revokeUser]

variable {options : KvSessionStoreOptions}

theorem plain_forget : Plain (kvSessionStore.forget executionCtx sidHash) := by
  refine .perform rfl (fun first => ?_)
  cases first <;> exact plain_settle.bind (fun _ => plain_settle)

/-- `get` of the KV store only reads and deletes. -/
theorem plain_kvGet : Plain (kvSessionStore.get platform options sid) := by
  refine Within.bind ?_ (fun read => ?_)
  · refine .perform rfl (fun first => ?_)
    cases first <;> simp
  · obtain ⟨found, seen⟩ := read
    cases found with
    | none => exact plain_return _
    | some record =>
        dsimp only
        split
        · exact plain_return _
        · refine .perform rfl (fun readAt => ?_)
          cases record.expired seen readAt with
          | true => exact plain_forget.bind (fun _ => plain_return _)
          | false =>
              refine plain_checkRevoked.bind (fun revoked => ?_)
              cases revoked <;> exact plain_return _

/-- The revocations of the KV store store nothing. -/
theorem quiet_kvRevoke : Quiet (kvSessionStore.revoke platform options sid) := by
  refine .perform rfl (fun record => ?_)
  refine Within.bind ?_ (fun _ => plain_forget.quiet)
  unfold kvSessionStore.tombstone
  cases options.revocation with
  | none => trivial
  | some list => cases record <;> simp [kvSessionStore.tombstoneExpiry, revocationList.revoke]

theorem quiet_kvRevokeAllForUser : Quiet (kvSessionStore.revokeAllForUser options userId) := by
  unfold kvSessionStore.revokeAllForUser
  cases options.revocation with
  | none => trivial
  | some list => simp [revocationList.revokeUser]

variable {store : SessionStore} {request : Request}

/-- `get`, `cleanup` and the landing of a deletion leave the revocation list alone. -/
theorem plain_get : Plain (store.answer platform (.get sid)) := by
  refine Within.bind ?_ (fun _ => plain_return _)
  cases store with
  | d1 options => exact plain_sqlGet
  | pg options => exact plain_sqlGet
  | kv options => exact plain_kvGet

theorem plain_cleanup {cutoff : Option Millis} : Plain (store.answer platform (.cleanup cutoff)) := by
  refine Within.bind ?_ (fun _ => plain_return _)
  cases store with
  | d1 options => exact plain_cutoffOr.bind (fun _ => within_perform _ _ |>.mpr rfl)
  | pg options => exact plain_cutoffOr.bind (fun _ => by simp)
  | kv options => exact plain_return _

theorem plain_land {deletion : Deletion} : Plain (store.answer platform (.land deletion)) :=
  .perform rfl (fun _ => plain_return _)

/-- Whether a request may make operations that are not quiet. -/
def Request.quiet : Request → Bool
  | .create _ => false
  | .touch .. => false
  | _ => true

/-- Every request but `create` and `touch` makes quiet operations only. -/
theorem quiet_answer (quiet : request.quiet = true) : Quiet (store.answer platform request) := by
  cases request with
  | create input => contradiction
  | touch isolate sid idleExpiresAt => contradiction
  | get sid => exact plain_get.quiet
  | revoke sid =>
      refine Within.bind ?_ (fun _ => trivial)
      cases store with
      | d1 options => exact quiet_sqlRevoke
      | pg options => exact quiet_sqlRevoke
      | kv options => exact quiet_kvRevoke
  | revokeAllForUser userId =>
      refine Within.bind ?_ (fun _ => trivial)
      cases store with
      | d1 options => exact quiet_sqlRevokeAllForUser
      | pg options => exact quiet_sqlRevokeAllForUser
      | kv options => exact quiet_kvRevokeAllForUser
  | cleanup cutoff => exact plain_cleanup.quiet
  | land deletion => exact plain_land.quiet

/-- A touch stores no session. -/
theorem touch_stores_none {isolate : Nat} {idleExpiresAt : Millis}
    : (store.answer platform (.touch isolate sid idleExpiresAt)).Within
        (fun op => op.stores = none) := by
  refine Within.bind ?_ (fun _ => trivial)
  cases store with
  | d1 options => exact .perform rfl (fun _ => within_perform _ _ |>.mpr rfl)
  | pg options => exact .perform rfl (fun _ => within_perform _ _ |>.mpr rfl)
  | kv options =>
      refine .perform rfl (fun readAt => ?_)
      split
      · trivial
      · refine .perform rfl (fun admitted => ?_)
        cases admitted with
        | false => trivial
        | true => exact within_perform _ _ |>.mpr rfl

/-- The operations by which `create` stores a session, under an id and at a clock reading. -/
inductive Op.StoresNew (platform : Platform) (input : NewSession) (sid : String) : Op → Prop
  | row (readAt : Millis)
    : StoresNew platform input sid
        (.statement (.insertRow (newRow (sha256Hex platform sid) input readAt)))
  | record (readAt : Millis) (expirationTtl : ℤ)
    : StoresNew platform input sid
        (.kv (.putRecord (sha256Hex platform sid) (newRecord input readAt) expirationTtl))

/-- What is stored is stored under the hash of the id. -/
theorem Op.StoresNew.stores {input : NewSession} {op : Op} (new : op.StoresNew platform input sid)
    : op.stores = some (sha256Hex platform sid) := by
  cases new <;> rfl

/-- Code that reads the clock, draws an id and stores a session has drawn the id when it stores. -/
theorem storing_leads {α : Type} {keep : Millis → String → Op} {answer : Millis → String → α}
    {calls : List Made} {op : Op} {rest : op.Reply → Task α}
    (leads : (Program.call Op.clock fun (readAt : Millis) =>
      Program.call Op.randomToken fun (sid : String) =>
        Program.call (keep readAt sid) fun _ => Program.pure (answer readAt sid)).Leads calls
          (.call op rest))
    (stores : op.stores ≠ none)
    : ∃ readAt sid, Made.drew sid ∈ calls ∧ op = keep readAt sid := by
  rcases leads_call.mp leads with ⟨_, same⟩ | ⟨readAt, _, rfl, drawing⟩
  · cases same
    contradiction
  rcases leads_call.mp drawing with ⟨_, same⟩ | ⟨sid, _, rfl, storing⟩
  · cases same
    contradiction
  rcases leads_call.mp storing with ⟨_, same⟩ | ⟨_, _, rfl, answering⟩
  · cases same
    exact ⟨readAt, sid, by simp [Made.drew], rfl⟩
  · nomatch (leads_pure.mp answering).2

/-- `create` stores its session under the hash of the id it has drawn. -/
theorem create_drew {input : NewSession} {calls : List Made} {op : Op}
    {rest : op.Reply → Task (Except String Session)}
    (leads : (store.create platform input).Leads calls (.call op rest)) (stores : op.stores ≠ none)
    : ∃ sid, Made.drew sid ∈ calls ∧ op.StoresNew platform input sid := by
  have sql (leads : (sqlSessionStore.create platform input).Leads calls (.call op rest))
      : ∃ sid, Made.drew sid ∈ calls ∧ op.StoresNew platform input sid := by
    unfold sqlSessionStore.create at leads
    split at leads
    · simp at leads
    · obtain ⟨readAt, sid, drew, rfl⟩ := storing_leads leads stores
      exact ⟨sid, drew, .row readAt⟩
  cases store with
  | d1 options => exact sql leads
  | pg options => exact sql leads
  | kv options =>
      simp only [SessionStore.create, kvSessionStore.create] at leads
      split at leads
      · simp at leads
      · obtain ⟨readAt, sid, drew, rfl⟩ := storing_leads leads stores
        exact ⟨sid, drew, .record readAt _⟩

/-- Only a `create` that has drawn an id stores a session, the one it was asked for. -/
theorem drew_of_stores {guarantees : Guarantees} {calls : List Made} {op : Op}
    {rest : op.Reply → Task Answer}
    (leads : ((sessionService platform guarantees store).program request).Leads calls (.call op rest))
    (stores : op.stores ≠ none)
    : ∃ input sid, request = .create input ∧ Made.drew sid ∈ calls
        ∧ op.StoresNew platform input sid := by
  by_cases quiet : request.quiet = true
  · have within : ((sessionService platform guarantees store).program request).Within
        (fun op => op.stores = none) :=
      .perform rfl (fun _ => (quiet_answer quiet).mono (fun _ => Op.stores_of_quiet))
    exact absurd (within.leads leads) stores
  · cases request with
    | touch isolate sid idleExpiresAt =>
        have within : ((sessionService platform guarantees store).program
            (.touch isolate sid idleExpiresAt)).Within (fun op => op.stores = none) :=
          .perform rfl (fun _ => touch_stores_none)
        exact absurd (within.leads leads) stores
    | create input =>
        rcases leads_call.mp leads with ⟨_, same⟩ | ⟨time, more, rfl, creating⟩
        · cases same
          contradiction
        · have creates : (store.create platform input >>= fun result =>
              Pure.pure (Answer.created result)).Leads more (.call op rest) := creating
          rcases leads_bind_call creates with ⟨inner, early⟩ | ⟨_, _, result, rfl, _, late⟩
          · obtain ⟨sid, drew, new⟩ := create_drew early stores
            exact ⟨input, sid, rfl, List.mem_cons_of_mem _ drew, new⟩
          · nomatch (leads_pure.mp late).2
    | _ => exact absurd rfl quiet

end WorkersAuth.Stores

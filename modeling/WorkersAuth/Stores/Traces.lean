import WorkersAuth.Stores.Moves

/-! The traces of the stores' functions.
A function of a store makes a handful of operations, so its finished traces are listed case
by case, one constructor for each path through the source. Runs with any interleaving and
runs of one call at a time are both reasoned about through these traces.
-/

namespace WorkersAuth.Stores

open Atomic Tables Program

/-- One call a store's code has made. -/
abbrev Made : Type := Call Op Op.Reply

variable {platform : Platform} {calls : List Made}

namespace Made

/-- The calls of a trace under short names. -/
def clock (readAt : Millis) : Made := ⟨.clock, readAt⟩

def drew (sid : String) : Made := ⟨.randomToken, sid⟩

def did (statement : Statement) (reply : statement.Reply) : Made := ⟨.statement statement, reply⟩

def selected (sidHash : String) (row : Option SessionRow) : Made :=
  ⟨.statement (.selectRow sidHash), row⟩

def gotRecord (sidHash : String) (record : Option StoredSession) : Made :=
  ⟨.kv (.getRecord sidHash), record⟩

def gotSeen (sidHash : String) (seen : Option SeenMarker) : Made :=
  ⟨.kv (.getSeen sidHash), seen⟩

/-- The call by which `settle` gets rid of something. -/
def settled (executionCtx : Bool) (deletion : Deletion) : Made :=
  match executionCtx with
  | false => ⟨.statement (.delete deletion), ()⟩
  | true => ⟨.statement (.deferDelete deletion), ()⟩

end Made

/-- `settle` is one call. -/
theorem settle_leads {executionCtx : Bool} {deletion : Deletion} {answer : Unit}
    : (settle executionCtx deletion).Leads calls (.pure answer)
      ↔ calls = [Made.settled executionCtx deletion] := by
  cases executionCtx <;> exact leads_perform

/-- `checkRevoked` asks the list when there is one. -/
theorem checkRevoked_leads {revocation : Option RevocationList} {sidHash userId : String}
    {createdAt : Millis} {revoked : Bool}
    (leads : (checkRevoked revocation sidHash userId createdAt).Leads calls (.pure revoked))
    : (revocation = none ∧ revoked = false ∧ calls = [])
      ∨ ∃ readAt, revocation.isSome = true ∧ calls = [⟨.listClock, readAt⟩,
          Made.did (.selectRevoked sidHash userId readAt createdAt) revoked] := by
  cases revocation with
  | none =>
      obtain ⟨rfl, same⟩ := leads_pure.mp leads
      cases same
      exact .inl ⟨rfl, rfl, rfl⟩
  | some list =>
      simp only [checkRevoked, revocationList.isRevoked, perform_bind, leads_call_pure,
        leads_perform] at leads
      obtain ⟨readAt, _, rfl, rfl⟩ := leads
      exact .inr ⟨readAt, rfl, rfl⟩

-----------------------------------------------------------------------------------------
-- The SQL stores
-----------------------------------------------------------------------------------------

namespace sqlSessionStore

variable {revocation : Option RevocationList} {executionCtx : Bool} {sid : String}

/-- The finished traces of `create`. -/
inductive CreateTrace (platform : Platform) (input : NewSession)
    : List Made → Except String Session → Prop
  | refused {error : String} (bad : assertTtls input = some error)
    : CreateTrace platform input [] (.error error)
  | created {readAt : Millis} {sid : String} (good : assertTtls input = none)
    : CreateTrace platform input
        [.clock readAt, .drew sid, .did (.insertRow (newRow (sha256Hex platform sid) input readAt)) ()]
        (.ok (rowToSession (newRow (sha256Hex platform sid) input readAt) sid))

theorem create_leads {input : NewSession} {result : Except String Session}
    (leads : (create platform input).Leads calls (.pure result))
    : CreateTrace platform input calls result := by
  unfold create at leads
  cases checked : assertTtls input with
  | some error =>
      simp only [checked, pure_eq, leads_pure] at leads
      obtain ⟨rfl, same⟩ := leads
      cases same
      exact .refused checked
  | none =>
      simp only [checked, perform_bind, leads_call_pure, pure_eq, leads_pure] at leads
      obtain ⟨readAt, _, rfl, sid, _, rfl, _, _, rfl, rfl, same⟩ := leads
      cases same
      exact .created checked

/-- The finished traces of `get`; `check` asks the revocation list. -/
inductive GetTrace (platform : Platform) (revocation : Option RevocationList)
    (executionCtx : Bool) (sid : String)
    : List Made → Option Session → Prop
  | missing : GetTrace platform revocation executionCtx sid
      [.selected (sha256Hex platform sid) none] none
  | revoked {row : SessionRow} {check : List Made}
    (checked : (checkRevoked revocation (sha256Hex platform sid) row.userId row.createdAt).Leads
      check (.pure true))
    : GetTrace platform revocation executionCtx sid
        (.selected (sha256Hex platform sid) (some row) :: check) none
  | expired {row : SessionRow} {check : List Made} {readAt : Millis}
    (checked : (checkRevoked revocation (sha256Hex platform sid) row.userId row.createdAt).Leads
      check (.pure false))
    (expired : row.expired readAt = true)
    : GetTrace platform revocation executionCtx sid
        (.selected (sha256Hex platform sid) (some row) :: check
          ++ [.clock readAt, .settled executionCtx (.row (sha256Hex platform sid))]) none
  | live {row : SessionRow} {check : List Made} {readAt : Millis}
    (checked : (checkRevoked revocation (sha256Hex platform sid) row.userId row.createdAt).Leads
      check (.pure false))
    (live : row.expired readAt = false)
    : GetTrace platform revocation executionCtx sid
        (.selected (sha256Hex platform sid) (some row) :: check ++ [.clock readAt])
        (some (rowToSession row sid))

theorem get_leads {result : Option Session}
    (leads : (get platform revocation executionCtx sid).Leads calls (.pure result))
    : GetTrace platform revocation executionCtx sid calls result := by
  simp only [get, perform_bind, leads_call_pure] at leads
  obtain ⟨found, _, rfl, leads⟩ := leads
  cases found with
  | none =>
      simp only [pure_eq, leads_pure] at leads
      obtain ⟨rfl, same⟩ := leads
      cases same
      exact .missing
  | some row =>
      simp only [leads_bind_pure] at leads
      obtain ⟨check, _, revoked, rfl, checked, leads⟩ := leads
      cases revoked with
      | true =>
          simp only [pure_eq, leads_pure] at leads
          obtain ⟨rfl, same⟩ := leads
          cases same
          rw [List.append_nil]
          exact .revoked checked
      | false =>
          simp only [leads_call_pure] at leads
          obtain ⟨readAt, _, rfl, leads⟩ := leads
          cases expired : row.expired readAt with
          | true =>
              simp only [expired, leads_bind_pure, settle_leads, pure_eq, leads_pure] at leads
              obtain ⟨_, _, _, rfl, rfl, rfl, same⟩ := leads
              cases same
              exact .expired checked expired
          | false =>
              simp only [expired, pure_eq, leads_pure] at leads
              obtain ⟨rfl, same⟩ := leads
              cases same
              exact .live checked expired

/-- `touch` reads the clock and then updates. -/
theorem touch_leads {idleExpiresAt : Millis} {answer : Unit}
    : (touch platform sid idleExpiresAt).Leads calls (.pure answer)
      ↔ ∃ readAt, calls
          = [.clock readAt, .did (.touchRow (sha256Hex platform sid) readAt idleExpiresAt) ()] := by
  simp only [touch, perform_bind, leads_call_pure, leads_perform]
  constructor
  · rintro ⟨readAt, _, rfl, rfl⟩
    exact ⟨readAt, rfl⟩
  · rintro ⟨readAt, rfl⟩
    exact ⟨readAt, _, rfl, rfl⟩

/-- `revoke` ends with the deletion of the row. -/
theorem revoke_leads {answer : Unit}
    (leads : (revoke platform revocation sid).Leads calls (.pure answer))
    : ∃ tombstones, (tombstoneRow revocation (sha256Hex platform sid)).Leads tombstones (.pure ())
        ∧ calls = tombstones ++ [Made.did (.delete (.row (sha256Hex platform sid))) ()] := by
  simp only [revoke, leads_bind_pure, leads_perform] at leads
  obtain ⟨tombstones, _, _, rfl, before, rfl⟩ := leads
  exact ⟨tombstones, before, rfl⟩

/-- `revokeAllForUser` ends with the deletion of the user's rows. -/
theorem revokeAllForUser_leads {userId : String} {answer : Unit}
    (leads : (revokeAllForUser revocation userId).Leads calls (.pure answer))
    : ∃ markers, (markUser revocation userId).Leads markers (.pure ())
        ∧ calls = markers ++ [Made.did (.deleteUserRows userId) ()] := by
  simp only [revokeAllForUser, leads_bind_pure, leads_perform] at leads
  obtain ⟨markers, _, _, rfl, before, rfl⟩ := leads
  exact ⟨markers, before, rfl⟩

end sqlSessionStore

-----------------------------------------------------------------------------------------
-- The KV store
-----------------------------------------------------------------------------------------

namespace kvSessionStore

variable {options : KvSessionStoreOptions} {executionCtx : Bool} {sid sidHash : String}

/-- Both deletions are issued, in one order or the other. -/
theorem forget_leads {answer : Unit}
    (leads : (forget executionCtx sidHash).Leads calls (.pure answer))
    : ∃ first, calls = ⟨.recordFirst, first⟩
        :: if first then
            [.settled executionCtx (.record sidHash), .settled executionCtx (.seen sidHash)]
          else [.settled executionCtx (.seen sidHash), .settled executionCtx (.record sidHash)] := by
  simp only [forget, perform_bind, leads_call_pure] at leads
  obtain ⟨first, _, rfl, leads⟩ := leads
  refine ⟨first, ?_⟩
  cases first <;>
    · simp only [leads_bind_pure, settle_leads] at leads
      obtain ⟨_, _, _, rfl, rfl, rfl⟩ := leads
      rfl

/-- Both reads are made, in one order or the other. -/
theorem readBoth_leads {record : Option StoredSession} {seen : Option SeenMarker}
    (leads : (readBoth sidHash).Leads calls (.pure (record, seen)))
    : ∃ first, calls = ⟨.recordFirst, first⟩
        :: if first then [.gotRecord sidHash record, .gotSeen sidHash seen]
          else [.gotSeen sidHash seen, .gotRecord sidHash record] := by
  simp only [readBoth, perform_bind, leads_call_pure] at leads
  obtain ⟨first, _, rfl, leads⟩ := leads
  refine ⟨first, ?_⟩
  cases first <;>
    · simp only [leads_call_pure, pure_eq, leads_pure, pure.injEq, Prod.mk.injEq] at leads
      obtain ⟨_, _, rfl, _, _, rfl, rfl, rfl, rfl⟩ := leads
      rfl

/-- The finished traces of `create`. -/
inductive CreateTrace (platform : Platform) (input : NewSession)
    : List Made → Except String Session → Prop
  | refused {error : String} (bad : assertTtls input = some error)
    : CreateTrace platform input [] (.error error)
  | created {readAt : Millis} {sid : String} (good : assertTtls input = none)
    : CreateTrace platform input
        [
          .clock readAt,
          .drew sid,
          ⟨.kv (.putRecord (sha256Hex platform sid) (newRecord input readAt)
            (ttlSecondsUntil (newRecord input readAt).absoluteExpiresAt readAt)), ()⟩
        ]
        (.ok ((newRecord input readAt).toSession none sid))

theorem create_leads {input : NewSession} {result : Except String Session}
    (leads : (create platform input).Leads calls (.pure result))
    : CreateTrace platform input calls result := by
  unfold create at leads
  cases checked : assertTtls input with
  | some error =>
      simp only [checked, pure_eq, leads_pure] at leads
      obtain ⟨rfl, same⟩ := leads
      cases same
      exact .refused checked
  | none =>
      simp only [checked, perform_bind, leads_call_pure, pure_eq, leads_pure] at leads
      obtain ⟨readAt, _, rfl, sid, _, rfl, _, _, rfl, rfl, same⟩ := leads
      cases same
      exact .created checked

/-- The finished traces of `get`: `reads` are the two reads, `check` asks the revocation list. -/
inductive GetTrace (platform : Platform) (options : KvSessionStoreOptions) (sid : String)
    : List Made → Option Session → Prop
  | missing {reads : List Made} {seen : Option SeenMarker}
    (read : (readBoth (sha256Hex platform sid)).Leads reads (.pure (none, seen)))
    : GetTrace platform options sid reads none
  | version {reads : List Made} {record : StoredSession} {seen : Option SeenMarker}
    (read : (readBoth (sha256Hex platform sid)).Leads reads (.pure (some record, seen)))
    (other : record.v ≠ recordVersion)
    : GetTrace platform options sid reads none
  | expired {reads forgets : List Made} {record : StoredSession} {seen : Option SeenMarker}
    {readAt : Millis}
    (read : (readBoth (sha256Hex platform sid)).Leads reads (.pure (some record, seen)))
    (known : record.v = recordVersion) (expired : record.expired seen readAt = true)
    (forgot : (forget options.executionCtx (sha256Hex platform sid)).Leads forgets (.pure ()))
    : GetTrace platform options sid (reads ++ .clock readAt :: forgets) none
  | revoked {reads check : List Made} {record : StoredSession} {seen : Option SeenMarker}
    {readAt : Millis}
    (read : (readBoth (sha256Hex platform sid)).Leads reads (.pure (some record, seen)))
    (known : record.v = recordVersion) (live : record.expired seen readAt = false)
    (checked : (checkRevoked options.revocation (sha256Hex platform sid) record.userId
      record.createdAt).Leads check (.pure true))
    : GetTrace platform options sid (reads ++ .clock readAt :: check) none
  | live {reads check : List Made} {record : StoredSession} {seen : Option SeenMarker}
    {readAt : Millis}
    (read : (readBoth (sha256Hex platform sid)).Leads reads (.pure (some record, seen)))
    (known : record.v = recordVersion) (live : record.expired seen readAt = false)
    (checked : (checkRevoked options.revocation (sha256Hex platform sid) record.userId
      record.createdAt).Leads check (.pure false))
    : GetTrace platform options sid (reads ++ .clock readAt :: check)
        (some (record.toSession seen sid))

theorem get_leads {result : Option Session}
    (leads : (get platform options sid).Leads calls (.pure result))
    : GetTrace platform options sid calls result := by
  simp only [get, leads_bind_pure] at leads
  obtain ⟨reads, _, ⟨found, seen⟩, rfl, read, leads⟩ := leads
  cases found with
  | none =>
      simp only [pure_eq, leads_pure] at leads
      obtain ⟨rfl, same⟩ := leads
      cases same
      rw [List.append_nil]
      exact .missing read
  | some record =>
      by_cases version : record.v = recordVersion
      · simp only [version, ne_eq, not_true_eq_false, if_false, judge, perform_bind,
          leads_call_pure] at leads
        obtain ⟨readAt, _, rfl, leads⟩ := leads
        cases expired : record.expired seen readAt with
        | true =>
            simp only [expired, leads_bind_pure, pure_eq, leads_pure] at leads
            obtain ⟨forgets, _, _, rfl, forgot, rfl, same⟩ := leads
            cases same
            rw [List.append_nil]
            exact .expired read version expired forgot
        | false =>
            simp only [expired, leads_bind_pure] at leads
            obtain ⟨check, _, revoked, rfl, checked, leads⟩ := leads
            cases revoked with
            | true =>
                simp only [pure_eq, leads_pure] at leads
                obtain ⟨rfl, same⟩ := leads
                cases same
                rw [List.append_nil]
                exact .revoked read version expired checked
            | false =>
                simp only [pure_eq, leads_pure] at leads
                obtain ⟨rfl, same⟩ := leads
                cases same
                rw [List.append_nil]
                exact .live read version expired checked
      · simp only [version, ne_eq, not_false_eq_true, if_true, pure_eq, leads_pure] at leads
        obtain ⟨rfl, same⟩ := leads
        cases same
        rw [List.append_nil]
        exact .version read version

/-- The finished traces of `touch`. -/
inductive TouchTrace (platform : Platform) (options : KvSessionStoreOptions) (isolate : Nat)
    (sid : String) (idleExpiresAt : Millis)
    : List Made → Prop
  | late {readAt : Millis} (late : idleExpiresAt ≤ readAt)
    : TouchTrace platform options isolate sid idleExpiresAt [.clock readAt]
  | throttled {readAt : Millis} (early : readAt < idleExpiresAt)
    : TouchTrace platform options isolate sid idleExpiresAt
        [.clock readAt, .did (.admitTouch isolate (sha256Hex platform sid) readAt
          (options.touchThrottleSec * sec)) false]
  | written {readAt : Millis} (early : readAt < idleExpiresAt)
    : TouchTrace platform options isolate sid idleExpiresAt
        [
          .clock readAt,
          .did (.admitTouch isolate (sha256Hex platform sid) readAt
            (options.touchThrottleSec * sec)) true,
          ⟨.kv (.putSeen (sha256Hex platform sid) { e := idleExpiresAt, s := readAt }
            (ttlSecondsUntil idleExpiresAt readAt)), ()⟩
        ]

theorem touch_leads {isolate : Nat} {idleExpiresAt : Millis} {answer : Unit}
    (leads : (touch platform options isolate sid idleExpiresAt).Leads calls (.pure answer))
    : TouchTrace platform options isolate sid idleExpiresAt calls := by
  simp only [touch, perform_bind, leads_call_pure] at leads
  obtain ⟨readAt, _, rfl, leads⟩ := leads
  by_cases late : idleExpiresAt ≤ readAt
  · simp only [late, if_true, pure_eq, leads_pure] at leads
    obtain ⟨rfl, _⟩ := leads
    exact .late late
  · simp only [late, if_false, leads_call_pure] at leads
    obtain ⟨admitted, _, rfl, leads⟩ := leads
    cases admitted with
    | false =>
        simp only [pure_eq, leads_pure] at leads
        obtain ⟨rfl, _⟩ := leads
        exact .throttled (not_le.mp late)
    | true =>
        simp only [leads_perform] at leads
        obtain rfl := leads
        exact .written (not_le.mp late)

/-- `revoke` ends with both deletions, made at once and awaited. -/
theorem revoke_leads {answer : Unit}
    (leads : (revoke platform options sid).Leads calls (.pure answer))
    : ∃ record tombstones forgets,
        (tombstone options (sha256Hex platform sid) record).Leads tombstones (.pure ())
        ∧ (forget false (sha256Hex platform sid)).Leads forgets (.pure ())
        ∧ calls = Made.gotRecord (sha256Hex platform sid) record :: tombstones ++ forgets := by
  simp only [revoke, perform_bind, leads_call_pure, leads_bind_pure] at leads
  obtain ⟨record, _, rfl, tombstones, forgets, _, rfl, before, after⟩ := leads
  exact ⟨record, tombstones, forgets, before, after, rfl⟩

end kvSessionStore

-----------------------------------------------------------------------------------------
-- Calls of a store
-----------------------------------------------------------------------------------------

section Answers

variable {guarantees : Guarantees} {store : SessionStore} {request : Request} {sid : String}

/-- A finished call has noted the moment it was made and then run the store's function. -/
theorem service_leads {answer : Answer}
    (leads : ((sessionService platform guarantees store).program request).Leads calls (.pure answer))
    : ∃ time more, calls = ⟨.called, time⟩ :: more
        ∧ (store.answer platform request).Leads more (.pure answer) :=
  leads_call_pure.mp leads

/-- A function's trace is that of the call which answers its result. -/
theorem leads_of_result {α : Type} {task : Task α} {wrap : α → Answer} {answer : Answer}
    (leads : (task >>= fun result => Pure.pure (wrap result)).Leads calls (.pure answer))
    : ∃ result, answer = wrap result ∧ task.Leads calls (.pure result) := by
  obtain ⟨first, second, result, rfl, before, after⟩ := leads_bind_pure.mp leads
  obtain ⟨rfl, same⟩ := leads_pure.mp after
  cases same
  exact ⟨result, rfl, by rwa [List.append_nil]⟩

theorem create_answer {input : NewSession} {result : Except String Session}
    (leads : (store.answer platform (.create input)).Leads calls (.pure (.created result)))
    : (store.create platform input).Leads calls (.pure result) := by
  obtain ⟨_, same, leads⟩ := leads_of_result leads
  cases same
  exact leads

theorem get_answer {result : Option Session}
    (leads : (store.answer platform (.get sid)).Leads calls (.pure (.found result)))
    : (store.get platform sid).Leads calls (.pure result) := by
  obtain ⟨_, same, leads⟩ := leads_of_result leads
  cases same
  exact leads

theorem touch_answer {isolate : Nat} {idleExpiresAt : Millis} {answer : Answer}
    (leads : (store.answer platform (.touch isolate sid idleExpiresAt)).Leads calls (.pure answer))
    : (store.touch platform isolate sid idleExpiresAt).Leads calls (.pure ()) :=
  (leads_of_result leads).choose_spec.2

theorem revoke_answer {answer : Answer}
    (leads : (store.answer platform (.revoke sid)).Leads calls (.pure answer))
    : (store.revoke platform sid).Leads calls (.pure ()) :=
  (leads_of_result leads).choose_spec.2

theorem revokeAllForUser_answer {userId : String} {answer : Answer}
    (leads : (store.answer platform (.revokeAllForUser userId)).Leads calls (.pure answer))
    : (store.revokeAllForUser userId).Leads calls (.pure ()) :=
  (leads_of_result leads).choose_spec.2

end Answers

end WorkersAuth.Stores

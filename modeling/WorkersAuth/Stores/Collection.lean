import WorkersAuth.Simulations.Silent
import WorkersAuth.Stores.OneAtATime

/-! KV keys whose `expirationTtl` has elapsed, and when collecting them can be seen.
Here KV keeps every key until it is collected, so that what a `get` answers depends on the code
alone. Two storages that differ in collected keys only answer every later call alike, as
long as no touch writes a marker that elapses before the first idle window ends.
-/

namespace WorkersAuth.Stores

open Atomic Tables Program Simulations

-----------------------------------------------------------------------------------------
-- KV that keeps its keys
-----------------------------------------------------------------------------------------

/-- What a KV call replies when no key goes before it is collected; `expirationTtl` counts from
the time of the call.
-/
def KvCall.held (time : Millis) : (op : KvCall) → Storage → op.Reply × Storage
  | .getRecord sidHash, storage => ((storage.records.current.find sidHash).map KvPair.value, storage)
  | .getSeen sidHash, storage => ((storage.seen.current.find sidHash).map KvPair.value, storage)
  | .putRecord sidHash record expirationTtl, storage =>
      let pair := { key := sidHash, value := record, expiresAt := time + expirationTtl * sec }
      ((), { storage with records := storage.records.put pair })
  | .putSeen sidHash marker expirationTtl, storage =>
      let pair := { key := sidHash, value := marker, expiresAt := time + expirationTtl * sec }
      ((), { storage with seen := storage.seen.put pair })

/-- The operations of one call, made at a time that stands still. -/
def execHeld (platform : Platform) (time : Millis) : Semantics Op Op.Reply Storage
  | .kv request, before, reply, after => request.held time before = (reply, after)
  | op, before, reply, after => exec platform (stopped time .strong) op before reply after

/-- A key whose `expirationTtl` has elapsed is deleted. -/
inductive Collected (time : Millis) (before : Storage) : Storage → Prop
  | record {sidHash : String} {pair : KvPair StoredSession}
    (stored : before.records.current.find sidHash = some pair) (elapsed : pair.expiresAt ≤ time)
    : Collected time before (before.delete (.record sidHash))
  | seen {sidHash : String} {pair : KvPair SeenMarker}
    (stored : before.seen.current.find sidHash = some pair) (elapsed : pair.expiresAt ≤ time)
    : Collected time before (before.delete (.seen sidHash))

variable {platform : Platform} {options : KvSessionStoreOptions} {time : Millis}
  {storage before after : Storage} {sid sidHash : String}

-----------------------------------------------------------------------------------------
-- What each call does
-----------------------------------------------------------------------------------------

/-- Getting rid of something, at once or later. -/
def Storage.settled (storage : Storage) (executionCtx : Bool) (deletion : Deletion) : Storage :=
  match executionCtx with
  | false => storage.delete deletion
  | true => { storage with deferred := deletion :: storage.deferred }

/-- Getting rid of both keys, in either order. -/
def Storage.Forgets (before : Storage) (executionCtx : Bool) (sidHash : String) (after : Storage)
    : Prop :=
  ∃ first : Bool,
    let one := if first then Deletion.record sidHash else Deletion.seen sidHash
    let other := if first then Deletion.seen sidHash else Deletion.record sidHash
    after = (before.settled executionCtx one).settled executionCtx other

theorem settle_held {executionCtx : Bool} {deletion : Deletion} {answer : Unit}
    : Evaluates (execHeld platform time) (settle executionCtx deletion) before answer after
      ↔ after = before.settled executionCtx deletion := by
  cases executionCtx <;>
    simp [settle, execHeld, exec, Statement.run, Storage.settled, eq_comm]

theorem forget_held {executionCtx : Bool} {answer : Unit}
    : Evaluates (execHeld platform time) (kvSessionStore.forget executionCtx sidHash) before answer after
      ↔ before.Forgets executionCtx sidHash after := by
  simp only [kvSessionStore.forget, perform_bind, evaluates_call]
  constructor
  · rintro ⟨first, _, same, run⟩
    cases same
    cases first <;>
    · obtain ⟨_, _, one, other⟩ := evaluates_bind.mp run
      rw [settle_held] at one other
      subst one other
      first | exact ⟨true, rfl⟩ | exact ⟨false, rfl⟩
  · rintro ⟨first, rfl⟩
    refine ⟨first, before, rfl, ?_⟩
    cases first <;>
      exact evaluates_bind.mpr ⟨(), _, settle_held.mpr rfl, settle_held.mpr rfl⟩

/-- While the clock stands still, reading it changes nothing. -/
theorem now_held {α : Type} {rest : Millis → Task α} {answer : α} (stands : before.now = time)
    : Evaluates (execHeld platform time) (now >>= rest) before answer after
      ↔ Evaluates (execHeld platform time) (rest time) before answer after := by
  subst stands
  refine evaluates_call.trans ⟨?_, fun run => ⟨_, _, ⟨rfl, rfl⟩, run⟩⟩
  rintro ⟨_, _, ⟨rfl, rfl⟩, run⟩
  exact run

theorem listNow_held {α : Type} {rest : Millis → Task α} {answer : α} (stands : before.now = time)
    : Evaluates (execHeld platform time) (listNow >>= rest) before answer after
      ↔ Evaluates (execHeld platform time) (rest time) before answer after := by
  subst stands
  refine evaluates_call.trans ⟨?_, fun run => ⟨_, _, ⟨rfl, rfl⟩, run⟩⟩
  rintro ⟨_, _, ⟨rfl, rfl⟩, run⟩
  exact run

/-- A statement that has run, then the rest. -/
theorem query_held {α : Type} {statement : Statement} {rest : statement.Reply → Task α}
    {reply : statement.Reply} {middle : Storage} {answer : α}
    (ran : statement.run before = some (reply, middle))
    : Evaluates (execHeld platform time) (query statement >>= rest) before answer after
      ↔ Evaluates (execHeld platform time) (rest reply) middle answer after := by
  refine evaluates_call.trans ⟨?_, fun run => ⟨_, _, ran, run⟩⟩
  rintro ⟨_, _, again, run⟩
  obtain ⟨rfl, rfl⟩ := Prod.mk.inj (Option.some.inj (ran.symm.trans again))
  exact run

/-- Both reads see what is stored, in either order. -/
theorem readBoth_held {both : Option StoredSession × Option SeenMarker}
    : Evaluates (execHeld platform time) (kvSessionStore.readBoth sidHash) before both after
      ↔ both = ((before.records.current.find sidHash).map KvPair.value,
          (before.seen.current.find sidHash).map KvPair.value)
        ∧ after = before := by
  simp only [kvSessionStore.readBoth, perform_bind, evaluates_call]
  constructor
  · rintro ⟨first, _, same, run⟩
    cases same
    cases first <;>
    · simp only [evaluates_call, execHeld, KvCall.held] at run
      obtain ⟨_, _, one, _, _, two, rest⟩ := run
      cases one
      cases two
      exact evaluates_pure.mp rest
  · rintro ⟨rfl, rfl⟩
    refine ⟨true, after, rfl, ?_⟩
    simp only [evaluates_call, execHeld, KvCall.held]
    exact ⟨_, _, rfl, _, _, rfl, evaluates_pure.mpr ⟨rfl, rfl⟩⟩

/-- Whether the revocation list refuses a session now. -/
def Storage.revoked (storage : Storage) (revocation : Option RevocationList) (sidHash userId : String)
    (createdAt : Millis)
    : Bool :=
  revocation.isSome
    && ((storage.tombstones.find sidHash).any (fun row => storage.now < row.expiresAt)
      || (storage.userMarkers.find userId).any (fun row => createdAt < row.revokedBefore))

theorem checkRevoked_held {revocation : Option RevocationList} {userId : String} {createdAt : Millis}
    {answer : Bool} (stands : before.now = time)
    : Evaluates (execHeld platform time) (checkRevoked revocation sidHash userId createdAt) before
        answer after
      ↔ answer = before.revoked revocation sidHash userId createdAt ∧ after = before := by
  cases revocation with
  | none => simp [checkRevoked, Storage.revoked]
  | some list =>
      rw [checkRevoked, revocationList.isRevoked, listNow_held stands, evaluates_perform]
      subst stands
      simp [execHeld, exec, Statement.run, Storage.revoked, eq_comm]

/-- What `get` makes of a record and a marker: an expired session is forgotten, a revoked one
refused, any other answered.
-/
def Storage.Judges (before : Storage) (options : KvSessionStoreOptions) (sidHash sid : String)
    (record : StoredSession) (seen : Option SeenMarker) (answer : Option Session) (after : Storage)
    : Prop :=
  if record.expired seen before.now then
    answer = none ∧ before.Forgets options.executionCtx sidHash after
  else
    answer = (if before.revoked options.revocation sidHash record.userId record.createdAt then none
      else some (record.toSession seen sid))
    ∧ after = before

theorem judge_held {record : StoredSession} {seen : Option SeenMarker} {answer : Option Session}
    (stands : before.now = time)
    : Evaluates (execHeld platform time) (kvSessionStore.judge platform options sid record seen)
        before answer after
      ↔ before.Judges options (sha256Hex platform sid) sid record seen answer after := by
  rw [kvSessionStore.judge, now_held stands, Storage.Judges, stands]
  cases record.expired seen time with
  | true =>
      simp only [evaluates_bind, forget_held, if_true]
      constructor
      · rintro ⟨_, _, forgets, rest⟩
        obtain ⟨rfl, rfl⟩ := evaluates_pure.mp rest
        exact ⟨rfl, forgets⟩
      · rintro ⟨rfl, forgets⟩
        exact ⟨(), after, forgets, evaluates_pure.mpr ⟨rfl, rfl⟩⟩
  | false =>
      simp only [evaluates_bind, checkRevoked_held stands, Bool.false_eq_true, if_false]
      constructor
      · rintro ⟨_, _, ⟨rfl, rfl⟩, rest⟩
        cases refused : Storage.revoked _ options.revocation _ record.userId record.createdAt with
        | true =>
            rw [refused] at rest
            obtain ⟨rfl, rfl⟩ := evaluates_pure.mp rest
            exact ⟨rfl, rfl⟩
        | false =>
            rw [refused] at rest
            obtain ⟨rfl, rfl⟩ := evaluates_pure.mp rest
            exact ⟨rfl, rfl⟩
      · rintro ⟨rfl, rfl⟩
        refine ⟨_, _, ⟨rfl, rfl⟩, ?_⟩
        cases Storage.revoked _ options.revocation _ record.userId record.createdAt with
        | true => exact evaluates_pure.mpr ⟨rfl, rfl⟩
        | false => exact evaluates_pure.mpr ⟨rfl, rfl⟩

/-- What `get` does, by what is stored under the two keys. -/
def Storage.Gets (platform : Platform) (options : KvSessionStoreOptions) (before : Storage) (sid : String)
    (answer : Option Session) (after : Storage)
    : Prop :=
  match before.records.current.find (sha256Hex platform sid) with
  | none => answer = none ∧ after = before
  | some pair =>
      if pair.value.v = recordVersion then
        before.Judges options (sha256Hex platform sid) sid pair.value
          ((before.seen.current.find (sha256Hex platform sid)).map KvPair.value) answer after
      else answer = none ∧ after = before

theorem get_held {answer : Option Session} (stands : before.now = time)
    : Evaluates (execHeld platform time) (kvSessionStore.get platform options sid) before answer after
      ↔ before.Gets platform options sid answer after := by
  unfold Storage.Gets
  simp only [kvSessionStore.get, evaluates_bind, readBoth_held]
  constructor
  · rintro ⟨_, _, ⟨rfl, rfl⟩, rest⟩
    split
    · next missing =>
        rw [missing] at rest
        exact evaluates_pure.mp rest
    · next pair stored =>
        rw [stored] at rest
        simp only [Option.map_some, ne_eq, ite_not] at rest
        split
        · next current =>
            rw [if_pos current] at rest
            exact (judge_held stands).mp rest
        · next other =>
            rw [if_neg other] at rest
            exact evaluates_pure.mp rest
  · intro gets
    refine ⟨_, _, ⟨rfl, rfl⟩, ?_⟩
    split at gets
    · next missing =>
        rw [missing]
        exact evaluates_pure.mpr gets
    · next pair stored =>
        rw [stored]
        simp only [Option.map_some, ne_eq, ite_not]
        split at gets
        · next current =>
            rw [if_pos current]
            exact (judge_held stands).mpr gets
        · next other =>
            rw [if_neg other]
            exact evaluates_pure.mpr gets

/-- A session is stored under a hash drawn now. -/
def Storage.drawing (storage : Storage) (sidHash : String) (record : StoredSession) : Storage :=
  {
    storage with
    drawn := sidHash :: storage.drawn
    records := storage.records.put ⟨sidHash, record,
      storage.now + ttlSecondsUntil record.absoluteExpiresAt storage.now * sec⟩
  }

theorem create_held {input : NewSession} {answer : Except String Session} (stands : before.now = time)
    : Evaluates (execHeld platform time) (kvSessionStore.create platform input) before answer after
      ↔ match assertTtls input with
        | some error => answer = .error error ∧ after = before
        | none => ∃ sid, before.Unused (sha256Hex platform sid)
            ∧ answer = .ok ((newRecord input before.now).toSession none sid)
            ∧ after = before.drawing (sha256Hex platform sid) (newRecord input before.now) := by
  subst stands
  unfold kvSessionStore.create
  cases assertTtls input with
  | some error => exact evaluates_pure
  | none =>
      simp only
      rw [now_held rfl]
      simp only [perform_bind, evaluates_call, pure_eq, evaluates_pure]
      constructor
      · rintro ⟨sid, _, ⟨unused, rfl⟩, _, _, puts, rfl, rfl⟩
        cases puts
        exact ⟨sid, unused, rfl, rfl⟩
      · rintro ⟨sid, unused, rfl, rfl⟩
        exact ⟨sid, _, ⟨unused, rfl⟩, (), _, rfl, rfl, rfl⟩

/-- The map of an isolate is replaced. -/
def Storage.guarding (storage : Storage) (isolate : Nat) (touchGuard : TouchGuard) : Storage :=
  { storage with
    guards := fun other => if other = isolate then touchGuard else storage.guards other }

/-- A marker is written now. -/
def Storage.marking (storage : Storage) (sidHash : String) (idleExpiresAt : Millis) : Storage :=
  { storage with
    seen := storage.seen.put ⟨sidHash, { e := idleExpiresAt, s := storage.now },
      storage.now + ttlSecondsUntil idleExpiresAt storage.now * sec⟩ }

/-- Whether a touch writes its marker, and the isolate's map after that. -/
abbrev Storage.admits (storage : Storage) (options : KvSessionStoreOptions) (isolate : Nat)
    (sidHash : String)
    : Bool × TouchGuard :=
  (storage.guards isolate).allows sidHash storage.now (options.touchThrottleSec * sec)

/-- What `touch` leaves. -/
def Storage.touching (before : Storage) (platform : Platform) (options : KvSessionStoreOptions)
    (isolate : Nat) (sid : String) (idleExpiresAt : Millis)
    : Storage :=
  if idleExpiresAt ≤ before.now then before
  else
    let guarded := before.guarding isolate
      (before.admits options isolate (sha256Hex platform sid)).2
    if (before.admits options isolate (sha256Hex platform sid)).1 then
      guarded.marking (sha256Hex platform sid) idleExpiresAt
    else guarded

theorem touch_held {isolate : Nat} {idleExpiresAt : Millis} {answer : Unit} (stands : before.now = time)
    : Evaluates (execHeld platform time)
        (kvSessionStore.touch platform options isolate sid idleExpiresAt) before answer after
      ↔ after = before.touching platform options isolate sid idleExpiresAt := by
  subst stands
  rw [kvSessionStore.touch, now_held rfl, Storage.touching]
  split
  · exact evaluates_pure.trans ⟨fun done => done.2, fun same => ⟨rfl, same⟩⟩
  · have admits : (Statement.admitTouch isolate (sha256Hex platform sid) before.now
        (options.touchThrottleSec * sec)).run before
        = some ((before.admits options isolate (sha256Hex platform sid)).1,
          before.guarding isolate (before.admits options isolate (sha256Hex platform sid)).2) := rfl
    rw [query_held admits]
    cases (before.admits options isolate (sha256Hex platform sid)).1 with
    | false => exact evaluates_pure.trans ⟨fun done => done.2, fun same => ⟨rfl, same⟩⟩
    | true => exact evaluates_perform.trans ⟨fun puts => (Prod.mk.inj puts).2.symm, fun same => same ▸ rfl⟩

/-- Both keys are deleted. -/
def Storage.forgotten (storage : Storage) (sidHash : String) : Storage :=
  (storage.delete (.record sidHash)).delete (.seen sidHash)

/-- Deletions that are awaited leave the same in either order. -/
theorem forgets_awaited : before.Forgets false sidHash after ↔ after = before.forgotten sidHash := by
  constructor
  · rintro ⟨first, rfl⟩
    cases first <;> rfl
  · rintro rfl
    exact ⟨true, rfl⟩

/-- Extending a tombstone keeps it the one of its session. -/
theorem Tombstone.sidHash_extended (expiresAt : Millis) (stored : Tombstone)
    : ({ stored with expiresAt := max stored.expiresAt expiresAt } : Tombstone).sidHash = stored.sidHash :=
  rfl

/-- A tombstone is written, or a later one kept. -/
def Storage.entombing (storage : Storage) (revocation : Option RevocationList) (sidHash : String)
    (expiresAt : Millis)
    : Storage :=
  match revocation with
  | none => storage
  | some _ =>
      { storage with
        tombstones := storage.tombstones.upsert { sidHash, expiresAt, revokedAt := storage.now }
          (fun stored => { stored with expiresAt := max stored.expiresAt expiresAt })
          (Tombstone.sidHash_extended expiresAt) }

/-- The expiry of the tombstone, by the record as it is read. -/
def Storage.tombstoneExpiresAt (storage : Storage) (options : KvSessionStoreOptions) (sidHash : String)
    : Millis :=
  match storage.records.current.find sidHash with
  | none => storage.now + options.tombstoneFallbackSec * sec
  | some pair => pair.value.absoluteExpiresAt

/-- What `revoke` leaves. -/
abbrev Storage.revoking (storage : Storage) (options : KvSessionStoreOptions) (sidHash : String)
    : Storage :=
  (storage.entombing options.revocation sidHash
    (storage.tombstoneExpiresAt options sidHash)).forgotten sidHash

theorem revoke_held {answer : Unit} (stands : before.now = time)
    : Evaluates (execHeld platform time) (kvSessionStore.revoke platform options sid) before answer after
      ↔ after = before.revoking options (sha256Hex platform sid) := by
  subst stands
  have tombs {record : Option StoredSession} {done : Unit} {middle : Storage}
      (as : record = (before.records.current.find (sha256Hex platform sid)).map KvPair.value)
      : Evaluates (execHeld platform before.now)
          (kvSessionStore.tombstone options (sha256Hex platform sid) record) before done middle
        ↔ middle = before.entombing options.revocation (sha256Hex platform sid)
            (before.tombstoneExpiresAt options (sha256Hex platform sid)) := by
    subst as
    have writes (expiresAt : Millis)
        : Evaluates (execHeld platform before.now)
            (revocationList.revoke (sha256Hex platform sid) expiresAt) before done middle
          ↔ middle = before.entombing (some {}) (sha256Hex platform sid) expiresAt := by
      rw [revocationList.revoke, listNow_held rfl]
      exact evaluates_perform.trans
        ⟨fun ran => (Prod.mk.inj (Option.some.inj ran)).2.symm, fun same => same ▸ rfl⟩
    unfold kvSessionStore.tombstone Storage.entombing Storage.tombstoneExpiresAt
    cases options.revocation with
    | none => exact evaluates_pure.trans ⟨fun done => done.2, fun same => ⟨rfl, same⟩⟩
    | some list =>
        simp only [kvSessionStore.tombstoneExpiry, revocationList.revoke]
        cases before.records.current.find (sha256Hex platform sid) with
        | none =>
            simp only [Option.map_none]
            rw [bind_assoc, now_held rfl]
            exact writes _
        | some pair =>
            simp only [Option.map_some]
            exact writes _
  simp only [kvSessionStore.revoke, perform_bind, evaluates_call, evaluates_bind, forget_held,
    forgets_awaited]
  constructor
  · rintro ⟨_, _, reads, _, middle, entombs, rfl⟩
    cases reads
    rw [(tombs rfl).mp entombs]
  · rintro rfl
    exact ⟨_, _, rfl, (), _, (tombs rfl).mpr rfl, rfl⟩

/-- A user is marked as signed out. -/
def Storage.markingUser (storage : Storage) (revocation : Option RevocationList) (userId : String)
    : Storage :=
  match revocation with
  | none => storage
  | some _ =>
      { storage with
        userMarkers := storage.userMarkers.upsert
          { userId, revokedBefore := storage.now + 1, revokedAt := storage.now }
          (fun stored => { stored with
            revokedBefore := max stored.revokedBefore (storage.now + 1), revokedAt := storage.now }) }

theorem revokeAllForUser_held {userId : String} {answer : Unit} (stands : before.now = time)
    : Evaluates (execHeld platform time) (kvSessionStore.revokeAllForUser options userId) before answer
        after
      ↔ after = before.markingUser options.revocation userId := by
  subst stands
  unfold kvSessionStore.revokeAllForUser Storage.markingUser
  cases options.revocation with
  | none => exact evaluates_pure.trans ⟨fun done => done.2, fun same => ⟨rfl, same⟩⟩
  | some list =>
      simp only [revocationList.revokeUser]
      rw [now_held rfl, listNow_held rfl]
      exact evaluates_perform.trans
        ⟨fun ran => (Prod.mk.inj (Option.some.inj ran)).2.symm, fun same => same ▸ rfl⟩

end WorkersAuth.Stores

import WorkersAuth.Stores.TouchGuards

/-! What a store has of one session, exactly.
A session that was last seen at some time is a row, or a record with its idle marker, and its
guards. As long as its window is open, `get` answers it and changes nothing, and `touch` records
a use or has recorded one just before.
-/

namespace WorkersAuth.Stores

open Atomic Tables Program

variable {platform : Platform} {store : SessionStore} {time seenAt : Millis}
  {before after : Storage} {sid sidHash : String} {creation : Creation} {answer : Answer}

-----------------------------------------------------------------------------------------
-- What a store has of a session that was last seen at a time
-----------------------------------------------------------------------------------------

/-- The session as it is served. -/
def Creation.session (creation : Creation) (sid : String) (seenAt : Millis) : Session where
  sid := sid
  userId := creation.input.userId
  subjectType := creation.input.subjectType
  createdAt := creation.createdAt
  lastSeenAt := seenAt
  idleExpiresAt := min (seenAt + creation.idle) creation.absoluteExpiresAt
  absoluteExpiresAt := creation.absoluteExpiresAt
  scope := creation.input.scope
  metadata := creation.input.metadata

/-- Its row on D1 and Postgres. -/
def Creation.row (creation : Creation) (sidHash : String) (seenAt : Millis) : SessionRow :=
  {
    newRow sidHash creation.input creation.createdAt with
    lastSeenAt := seenAt
    idleExpiresAt := min (seenAt + creation.idle) creation.absoluteExpiresAt
  }

/-- Its keys on KV, which outlast it, and what the guards remember of it. -/
structure Creation.InKv (creation : Creation) (sidHash : String) (seenAt : Millis) (storage : Storage)
    : Prop where
  record : ∃ pair, storage.records.current.find sidHash = some pair
    ∧ pair.value = newRecord creation.input creation.createdAt
    ∧ creation.absoluteExpiresAt ≤ pair.expiresAt
  marker : (seenAt = creation.createdAt ∧ storage.seen.current.find sidHash = none)
    ∨ ∃ pair, storage.seen.current.find sidHash = some pair
      ∧ pair.value = { e := seenAt + creation.idle, s := seenAt }
      ∧ seenAt + creation.idle ≤ pair.expiresAt
  guards : ∀ isolate, ∀ entry ∈ storage.guards isolate, entry.1 = sidHash → entry.2 ≤ seenAt

/-- The session stands in a store, last seen at a time. -/
structure Creation.Stands (creation : Creation) (store : SessionStore) (sidHash : String)
    (seenAt : Millis) (storage : Storage)
    : Prop where
  since : creation.createdAt ≤ seenAt
  row : store.usesKv = false → storage.rows.find sidHash = some (creation.row sidHash seenAt)
  kv : store.usesKv = true → creation.InKv sidHash seenAt storage
  unrevoked : store.revocation.isSome = true →
    storage.revokes sidHash creation.input.userId creation.createdAt creation.createdAt = false

/-- The clock and KV's own time move on. -/
theorem Creation.Stands.later (stands : creation.Stands store sidHash seenAt before)
    (now kvNow : Millis)
    : creation.Stands store sidHash seenAt { before with now, kvNow } where
  since := stands.since
  row := stands.row
  kv usesKv := ⟨(stands.kv usesKv).record, (stands.kv usesKv).marker, (stands.kv usesKv).guards⟩
  unrevoked := stands.unrevoked

/-- What is not revoked at first is not revoked later, unless something is listed. -/
theorem Storage.revokes_later {storage : Storage} {userId : String} {createdAt readAt : Millis}
    (unrevoked : storage.revokes sidHash userId createdAt createdAt = false) (later : createdAt ≤ readAt)
    : storage.revokes sidHash userId readAt createdAt = false := by
  simp only [revokes, Bool.or_eq_false_iff, Option.any_eq_false, decide_eq_false_iff_not,
    not_lt] at unrevoked ⊢
  exact ⟨fun tombstone found => (unrevoked.1 tombstone found).trans later, unrevoked.2⟩

-----------------------------------------------------------------------------------------
-- Reading
-----------------------------------------------------------------------------------------

/-- What KV reads before the window ends: the record, and a marker that stands for the session. -/
theorem Creation.InKv.reads {record : Option StoredSession} {seen : Option SeenMarker}
    {calls : List Made} (inKv : creation.InKv sidHash seenAt before)
    (idle : time < seenAt + creation.idle) (live : time < creation.absoluteExpiresAt)
    (leads : (kvSessionStore.readBoth sidHash).Leads calls (.pure (record, seen)))
    (executes : Executes (exec platform (stopped time .strong)) before calls after)
    (early : after.kvNow ≤ time)
    : record = some (newRecord creation.input creation.createdAt)
      ∧ (seen.map SeenMarker.s).getD creation.createdAt = seenAt
      ∧ (seen.map SeenMarker.e).getD (creation.createdAt + creation.idle) = seenAt + creation.idle
      ∧ ∃ kvNow, after = { before with kvNow } := by
  obtain ⟨recordTime, seenTime, kvTime, _, readRecord, _, readSeen, recordEarly, seenEarly, rfl⟩ :=
    readBoth_executes leads executes
  obtain ⟨pair, found, value, lasts⟩ := inKv.record
  have fresh : recordTime < pair.expiresAt := by linarith [show kvTime ≤ time from early]
  have shown := KvSpace.read_eq_some.mpr ⟨pair, found, fresh, value⟩
  refine ⟨(show record = _ from readRecord).trans shown, ?_⟩
  rcases inKv.marker with ⟨unseen, none⟩ | ⟨mark, marked, value, lasts⟩
  · have nothing : seen = .none := by
      rw [show seen = _ from readSeen, KvSpace.read, none]
      rfl
    subst nothing
    exact ⟨unseen.symm, by rw [unseen]; rfl, kvTime, rfl⟩
  · have fresh : seenTime < mark.expiresAt := by linarith [show kvTime ≤ time from early]
    have marker := KvSpace.read_eq_some.mpr ⟨mark, marked, fresh, value⟩
    rw [show seen = _ from readSeen, marker]
    exact ⟨rfl, rfl, kvTime, rfl⟩

/-- A record with such a marker is not expired, and stands for the session. -/
theorem Creation.session_of_marker {seen : Option SeenMarker} (sid : String)
    (idle : time < seenAt + creation.idle) (live : time < creation.absoluteExpiresAt)
    (shows : (seen.map SeenMarker.s).getD creation.createdAt = seenAt)
    (lasts : (seen.map SeenMarker.e).getD (creation.createdAt + creation.idle) = seenAt + creation.idle)
    : (newRecord creation.input creation.createdAt).expired seen time = false
      ∧ (newRecord creation.input creation.createdAt).toSession seen sid
        = creation.session sid seenAt := by
  have ends : (newRecord creation.input creation.createdAt).idleExpiresAt seen
      = min (seenAt + creation.idle) creation.absoluteExpiresAt :=
    congrArg (min · creation.absoluteExpiresAt) lasts
  constructor
  · simp only [StoredSession.expired, ends, Bool.or_eq_false_iff, decide_eq_false_iff_not, not_le]
    exact ⟨live, lt_min idle live⟩
  · simp only [StoredSession.toSession, ends]
    exact congrArg (fun seenAt => { creation.session sid _ with lastSeenAt := seenAt }) shows

/-- Asking the list about a session that it does not revoke. -/
theorem checkRevoked_unrevoked {revocation : Option RevocationList} {userId : String}
    {createdAt : Millis} {revoked : Bool} {check : List Made}
    (leads : (checkRevoked revocation sidHash userId createdAt).Leads check (.pure revoked))
    (executes : Executes (exec platform (stopped time .strong)) before check after)
    (read : before.now = time)
    (unrevoked : revocation.isSome = true → before.revokes sidHash userId time createdAt = false)
    : revoked = false ∧ after = before := by
  obtain ⟨same, answers⟩ := checkRevoked_executes leads executes read
  refine ⟨?_, same⟩
  rcases checkRevoked_leads leads with ⟨_, silent, _⟩ | ⟨_, listed, _⟩
  · exact silent
  · exact (answers listed).symm.trans (unrevoked listed)

/-- `get` on D1 and Postgres answers the session and leaves it as it is; the other paths through it
need the row to be missing, revoked or expired.
-/
theorem Creation.Stands.sqlGet {revocation : Option RevocationList} {executionCtx : Bool}
    {found : Option Session} {calls : List Made}
    (stands : creation.Stands store (sha256Hex platform sid) seenAt before)
    (sql : store.usesKv = false) (list : store.revocation = revocation)
    (idle : time < seenAt + creation.idle) (live : time < creation.absoluteExpiresAt)
    (later : creation.createdAt ≤ time)
    (trace : sqlSessionStore.GetTrace platform revocation executionCtx sid calls found)
    (executes : Executes (exec platform (stopped time .strong)) { before with now := time } calls after)
    : found = some (creation.session sid seenAt)
      ∧ creation.Stands store (sha256Hex platform sid) seenAt after := by
  have stored := stands.row sql
  have open_ : (creation.row (sha256Hex platform sid) seenAt).expired time = false := by
    simp only [SessionRow.expired, Bool.or_eq_false_iff, decide_eq_false_iff_not, not_le]
    exact ⟨lt_min idle live, live⟩
  have unrevoked (listed : revocation.isSome = true)
      : before.revokes (sha256Hex platform sid) creation.input.userId time creation.createdAt = false :=
    Storage.revokes_later (stands.unrevoked (list ▸ listed)) later
  have selects {row : Option SessionRow} {calls : List Made}
      (executes : Executes (exec platform (stopped time .strong)) { before with now := time }
        (Made.selected (sha256Hex platform sid) row :: calls) after)
      : row = some (creation.row (sha256Hex platform sid) seenAt)
        ∧ Executes (exec platform (stopped time .strong)) { before with now := time } calls after := by
    obtain ⟨middle, selects, rest⟩ := Sequence.cons_iff.mp executes
    simp only [exec, Made.selected, Statement.run, Option.some.injEq, Prod.mk.injEq] at selects
    obtain ⟨same, rfl⟩ := selects
    exact ⟨same.symm.trans stored, rest⟩
  cases trace with
  | missing =>
      obtain ⟨missing, _⟩ := selects executes
      contradiction
  | revoked checked =>
      obtain ⟨same, checks⟩ := selects executes
      cases same
      obtain ⟨impossible, _⟩ := checkRevoked_unrevoked checked checks rfl unrevoked
      contradiction
  | expired checked expired =>
      obtain ⟨same, rest⟩ := selects executes
      cases same
      obtain ⟨_, _, reads⟩ := Sequence.append_iff.mp rest
      obtain ⟨_, ⟨reads, _⟩, _⟩ := Sequence.cons_iff.mp reads
      cases (reads : _ = time)
      cases expired.symm.trans open_
  | live checked live =>
      obtain ⟨same, rest⟩ := selects executes
      cases same
      obtain ⟨_, checks, reads⟩ := Sequence.append_iff.mp rest
      obtain ⟨_, rfl⟩ := checkRevoked_unrevoked checked checks rfl unrevoked
      simp only [Sequence.cons_iff, Sequence.nil_iff, Made.clock] at reads
      obtain ⟨_, ⟨reads, rfl⟩, rfl⟩ := reads
      cases (reads : _ = time)
      exact ⟨rfl, stands.later time before.kvNow⟩

/-- And so does `get` on KV. -/
theorem Creation.Stands.kvGet {options : KvSessionStoreOptions} {found : Option Session}
    {calls : List Made} (stands : creation.Stands (.kv options) (sha256Hex platform sid) seenAt before)
    (idle : time < seenAt + creation.idle) (live : time < creation.absoluteExpiresAt)
    (later : creation.createdAt ≤ time)
    (trace : kvSessionStore.GetTrace platform options sid calls found)
    (executes : Executes (exec platform (stopped time .strong)) { before with now := time } calls after)
    (early : after.kvNow ≤ time)
    : found = some (creation.session sid seenAt)
      ∧ creation.Stands (.kv options) (sha256Hex platform sid) seenAt after := by
  have noted : creation.Stands (.kv options) (sha256Hex platform sid) seenAt { before with now := time } :=
    stands.later time before.kvNow
  have unrevoked (listed : options.revocation.isSome = true)
      : before.revokes (sha256Hex platform sid) creation.input.userId time creation.createdAt = false :=
    Storage.revokes_later (stands.unrevoked listed) later
  have reads {record : Option StoredSession} {seen : Option SeenMarker} {reads : List Made}
      (rest : List Made)
      (leads : (kvSessionStore.readBoth (sha256Hex platform sid)).Leads reads (.pure (record, seen)))
      (executes : Executes (exec platform (stopped time .strong)) { before with now := time }
        (reads ++ rest) after)
      : record = some (newRecord creation.input creation.createdAt)
        ∧ (newRecord creation.input creation.createdAt).expired seen time = false
        ∧ (newRecord creation.input creation.createdAt).toSession seen sid = creation.session sid seenAt
        ∧ ∃ kvNow, Executes (exec platform (stopped time .strong))
            { before with now := time, kvNow } rest after := by
    obtain ⟨middle, first, rest⟩ := Sequence.append_iff.mp executes
    have forward : middle.kvNow ≤ after.kvNow :=
      rest.keeps (fun storage => middle.kvNow ≤ storage.kvNow)
        (fun _ _ _ _ taken kept => kept.trans (kvNow_le taken)) le_rfl
    obtain ⟨same, shows, lasts, kvNow, rfl⟩ :=
      (noted.kv rfl).reads idle live leads first (forward.trans early)
    have marked := Creation.session_of_marker sid idle live shows lasts
    exact ⟨same, marked.1, marked.2, kvNow, rest⟩
  cases trace with
  | missing leads =>
      obtain ⟨missing, _⟩ := reads [] leads (by rwa [List.append_nil])
      contradiction
  | version leads other =>
      obtain ⟨same, _⟩ := reads [] leads (by rwa [List.append_nil])
      cases same
      exact absurd rfl other
  | expired leads known expired forgot =>
      obtain ⟨same, fresh, _, _, rest⟩ := reads _ leads executes
      cases same
      obtain ⟨_, ⟨read, _⟩, _⟩ := Sequence.cons_iff.mp rest
      cases (read : _ = time)
      cases expired.symm.trans fresh
  | revoked leads known live checked =>
      obtain ⟨same, _, _, _, rest⟩ := reads _ leads executes
      cases same
      obtain ⟨_, ⟨read, rfl⟩, checks⟩ := Sequence.cons_iff.mp rest
      cases (read : _ = time)
      obtain ⟨impossible, _⟩ := checkRevoked_unrevoked checked checks rfl unrevoked
      contradiction
  | live leads known live checked =>
      obtain ⟨same, _, served, kvNow, rest⟩ := reads _ leads executes
      cases same
      obtain ⟨_, ⟨read, rfl⟩, checks⟩ := Sequence.cons_iff.mp rest
      cases (read : _ = time)
      obtain ⟨_, rfl⟩ := checkRevoked_unrevoked checked checks rfl unrevoked
      exact ⟨congrArg some served, stands.later _ kvNow⟩

/-- A `get` before the window ends answers the session, by its trace. -/
theorem Creation.Stands.get
    (stands : creation.Stands store (sha256Hex platform sid) seenAt before)
    (idle : time < seenAt + creation.idle) (live : time < creation.absoluteExpiresAt)
    (later : creation.createdAt ≤ time)
    (serves : Serves platform .strong time (store.call platform (.get sid)) before answer after)
    (early : after.kvNow ≤ time)
    : answer = .found (some (creation.session sid seenAt))
      ∧ creation.Stands store (sha256Hex platform sid) seenAt after := by
  obtain ⟨found, rfl⟩ := get_answers serves
  obtain ⟨read, middle, ⟨reads, rfl⟩, run⟩ := evaluates_call.mp serves.2
  cases (reads : read = time)
  obtain ⟨calls, leads, executes⟩ := run.trace
  have gets := get_answer leads
  have both : found = some (creation.session sid seenAt)
      ∧ creation.Stands store (sha256Hex platform sid) seenAt after := by
    cases store with
    | d1 options =>
        exact stands.sqlGet rfl rfl idle live later (sqlSessionStore.get_leads gets) executes
    | pg options =>
        exact stands.sqlGet rfl rfl idle live later (sqlSessionStore.get_leads gets) executes
    | kv options =>
        exact stands.kvGet idle live later (kvSessionStore.get_leads gets) executes early
  exact ⟨congrArg Answer.found both.1, both.2⟩

-----------------------------------------------------------------------------------------
-- Touching
-----------------------------------------------------------------------------------------

/-- A key that is written with this time to live outlasts the moment it is written for. -/
theorem ttlSecondsUntil_outlasts {expiresAt readAt kvTime : Millis} (forward : readAt ≤ kvTime)
    : expiresAt ≤ kvTime + ttlSecondsUntil expiresAt readAt * sec := by
  have whole : (expiresAt - readAt) / sec ≤ ttlSecondsUntil expiresAt readAt :=
    (Int.le_ceil _).trans (Int.cast_le.mpr (le_max_right _ _))
  rw [div_le_iff₀ (by decide)] at whole
  linarith

/-- A touch on D1 and Postgres moves the row on. -/
theorem Creation.Stands.sqlTouch {isolate : Nat}
    (stands : creation.Stands store (sha256Hex platform sid) seenAt before)
    (sql : store.usesKv = false)
    (idle : time < seenAt + creation.idle) (live : time < creation.absoluteExpiresAt)
    (later : creation.createdAt ≤ time)
    (effect : Effect platform store time before (.touch isolate sid (time + creation.idle)) answer after)
    : creation.Stands store (sha256Hex platform sid) time after := by
  cases effect with
  | touchedRow _ =>
      refine ⟨later, fun _ => ?_, fun usesKv => ?_, stands.unrevoked⟩
      · have open_ : time < (creation.row (sha256Hex platform sid) seenAt).idleExpiresAt :=
          lt_min idle live
        have own : (creation.row (sha256Hex platform sid) seenAt).sidHash = sha256Hex platform sid := rfl
        have ends : time < (creation.row (sha256Hex platform sid) seenAt).absoluteExpiresAt := live
        simp only [Table.find_updateWhere, stands.row sql, Option.map_some, own, open_, ends, decide_true,
          Bool.and_self, if_true]
        rfl
      · rw [sql] at usesKv
        contradiction
  | unmarked usesKv =>
      rw [sql] at usesKv
      contradiction
  | marked same early admitted forward =>
      subst same
      contradiction
  | quiet quiet wanes now => contradiction

/-- A touch on KV writes a marker, or its guard has let one through within the throttle; no later
than the session was last seen. By the paths through `touch`.
-/
theorem Creation.Stands.kvTouch {options : KvSessionStoreOptions} {isolate : Nat} {calls : List Made}
    (stands : creation.Stands (.kv options) (sha256Hex platform sid) seenAt before)
    (seen : seenAt ≤ time) (lasting : 0 < creation.idle)
    (trace : kvSessionStore.TouchTrace platform options isolate sid (time + creation.idle) calls)
    (executes : Executes (exec platform (stopped time .strong)) { before with now := time } calls after)
    (forward : time ≤ before.kvNow)
    : (creation.Stands (.kv options) (sha256Hex platform sid) seenAt after
        ∧ time - seenAt < options.touchThrottleSec * sec)
      ∨ creation.Stands (.kv options) (sha256Hex platform sid) time after := by
  have inKv := stands.kv rfl
  cases trace with
  | late late =>
      obtain ⟨_, ⟨read, _⟩, _⟩ := Sequence.cons_iff.mp executes
      cases (read : _ = time)
      exact absurd late (not_le.mpr (lt_add_of_pos_right _ lasting))
  | throttled early =>
      simp only [Sequence.cons_iff, Sequence.nil_iff, Made.clock, Made.did] at executes
      obtain ⟨_, ⟨read, rfl⟩, _, asks, rfl⟩ := executes
      cases (read : _ = time)
      simp only [exec, Statement.run, Option.some.injEq, Prod.mk.injEq] at asks
      obtain ⟨refused, rfl⟩ := asks
      obtain ⟨⟨entry, member, same, recent⟩, kept⟩ := TouchGuard.allows_eq_false refused
      have known : entry.2 ≤ seenAt := inKv.guards isolate entry member same
      refine .inl ⟨⟨stands.since, stands.row, fun _ => ⟨inKv.record, inKv.marker, ?_⟩,
        stands.unrevoked⟩, by linarith⟩
      intro other entry member same
      dsimp only at member
      split at member
      · next here =>
          subst here
          exact inKv.guards other entry (kept ▸ member) same
      · exact inKv.guards other entry member same
  | written early =>
      simp only [Sequence.cons_iff, Sequence.nil_iff, Made.clock, Made.did] at executes
      obtain ⟨_, ⟨read, rfl⟩, middle, asks, _, ⟨kvTime, onward, rfl, _⟩, rfl⟩ := executes
      cases (read : _ = time)
      have guards {other : Nat} {entry : String × Millis} (member : entry ∈ middle.guards other)
          (same : entry.1 = sha256Hex platform sid)
          : entry.2 ≤ time := by
        rcases mem_guards_admitTouch asks member with old | rfl
        · exact (inKv.guards other entry old same).trans seen
        · exact le_rfl
      simp only [exec, Statement.run, Option.some.injEq, Prod.mk.injEq] at asks
      obtain ⟨_, rfl⟩ := asks
      refine .inr ⟨stands.since.trans seen, by simp [SessionStore.usesKv], fun _ => ⟨inKv.record, ?_, ?_⟩,
        stands.unrevoked⟩
      · refine .inr ⟨_, KvSpace.find_put.trans (if_pos rfl), rfl, ?_⟩
        exact ttlSecondsUntil_outlasts (forward.trans onward)
      · exact fun other entry member same => guards member same

/-- The seconds by which the two throttles may leave a use unrecorded: the middleware's interval,
and on KV the guard's if that is longer.
-/
def SessionStore.slackSec (store : SessionStore) (touchIntervalSec : ℚ) : ℚ :=
  match store with
  | .kv options => max touchIntervalSec options.touchThrottleSec
  | _ => touchIntervalSec

theorem SessionStore.le_slackSec (store : SessionStore) (touchIntervalSec : ℚ)
    : touchIntervalSec ≤ store.slackSec touchIntervalSec := by
  cases store with
  | kv options => exact le_max_left _ _
  | _ => exact le_rfl

/-- After a touch the last record of a use is no older than the slack, by the kind of store. -/
theorem Creation.Stands.touch {isolate : Nat} {touchIntervalSec : ℚ}
    (stands : creation.Stands store (sha256Hex platform sid) seenAt before)
    (seen : seenAt ≤ time) (lasting : 0 < creation.idle)
    (idle : time < seenAt + creation.idle) (live : time < creation.absoluteExpiresAt)
    (slack : 0 < store.slackSec touchIntervalSec)
    (serves : Serves platform .strong time
      (store.call platform (.touch isolate sid (time + creation.idle))) before answer after)
    (forward : time ≤ before.kvNow)
    : ∃ recordedAt, creation.Stands store (sha256Hex platform sid) recordedAt after
        ∧ recordedAt ≤ time ∧ time - recordedAt < store.slackSec touchIntervalSec * sec := by
  have now : time - time < store.slackSec touchIntervalSec * sec := by
    rw [sub_self]
    exact mul_pos slack (by decide)
  have later := stands.since.trans seen
  cases store with
  | d1 options => exact ⟨time, stands.sqlTouch rfl idle live later (serves_effect serves), le_rfl, now⟩
  | pg options => exact ⟨time, stands.sqlTouch rfl idle live later (serves_effect serves), le_rfl, now⟩
  | kv options =>
      obtain ⟨read, middle, ⟨reads, rfl⟩, run⟩ := evaluates_call.mp serves.2
      cases (reads : read = time)
      obtain ⟨calls, leads, executes⟩ := run.trace
      have touches := kvSessionStore.touch_leads (touch_answer leads)
      rcases stands.kvTouch seen lasting touches executes forward with ⟨kept, recent⟩ | moved
      · refine ⟨seenAt, kept, seen, recent.trans_le ?_⟩
        exact mul_le_mul_of_nonneg_right (le_max_right _ _) (by decide)
      · exact ⟨time, moved, le_rfl, now⟩

-----------------------------------------------------------------------------------------
-- Creating
-----------------------------------------------------------------------------------------

/-- On D1 and Postgres a created session stands, from the effect of `create`. -/
theorem stands_createdRow {input : NewSession} {session : Session} (sql : store.usesKv = false)
    (effect : Effect platform store time before (.create input) (.created (.ok session)) after)
    (unrevoked : store.revocation.isSome = true →
      after.revokes (sha256Hex platform session.sid) input.userId time time = false)
    : (⟨store.usesKv, input, time⟩ : Creation).Stands store (sha256Hex platform session.sid) time after
      ∧ session = (⟨store.usesKv, input, time⟩ : Creation).session session.sid time := by
  cases effect with
  | createdRow _ unused inserted =>
      refine ⟨⟨le_rfl, fun _ => ?_, fun usesKv => ?_, unrevoked⟩, rfl⟩
      · rw [Table.find_insert inserted]
        exact if_pos rfl
      · rw [sql] at usesKv
        contradiction
  | createdRecord usesKv unused forward =>
      rw [sql] at usesKv
      contradiction
  | quiet quiet wanes now => contradiction

/-- And so does one on KV, whose record lasts as long as it can. -/
theorem stands_createdRecord {options : KvSessionStoreOptions} {input : NewSession} {session : Session}
    {calls : List Made} (trace : kvSessionStore.CreateTrace platform input calls (.ok session))
    (executes : Executes (exec platform (stopped time .strong)) { before with now := time } calls after)
    (accounted : before.Accounted) (past : GuardsPast time before)
    (forward : time ≤ before.kvNow)
    (unrevoked : options.revocation.isSome = true →
      after.revokes (sha256Hex platform session.sid) input.userId time time = false)
    : (⟨true, input, time⟩ : Creation).Stands (.kv options) (sha256Hex platform session.sid) time after
      ∧ session = (⟨true, input, time⟩ : Creation).session session.sid time := by
  cases trace with
  | created good =>
      simp only [Sequence.cons_iff, Sequence.nil_iff, Made.clock, Made.drew] at executes
      obtain ⟨_, ⟨read, rfl⟩, _, ⟨unused, rfl⟩, _, ⟨kvTime, onward, rfl, _⟩, rfl⟩ := executes
      cases (read : _ = time)
      refine ⟨⟨le_rfl, by simp [SessionStore.usesKv], fun _ => ⟨?_, ?_, ?_⟩, unrevoked⟩, rfl⟩
      · refine ⟨_, KvSpace.find_put.trans (if_pos rfl), rfl, ?_⟩
        exact ttlSecondsUntil_outlasts (forward.trans onward)
      · refine .inl ⟨rfl, ?_⟩
        rw [← Option.not_isSome_iff_eq_none, Option.isSome_iff_exists]
        rintro ⟨mark, marked⟩
        have written : mark.key ∈ before.seen.written.map KvPair.key :=
          List.mem_map_of_mem (accounted.seen _ mark marked)
        rw [show mark.key = _ from Table.key_of_find marked] at written
        exact unused.2 written
      · exact fun isolate entry member _ => past isolate entry member

/-- A created session stands, unless the list already revokes it; by the kind of store. -/
theorem stands_created {input : NewSession} {session : Session}
    (serves : Serves platform .strong time (store.call platform (.create input)) before
      (.created (.ok session)) after)
    (accounted : before.Accounted) (past : GuardsPast time before)
    (forward : time ≤ before.kvNow)
    (unrevoked : store.revocation.isSome = true →
      after.revokes (sha256Hex platform session.sid) input.userId time time = false)
    : (⟨store.usesKv, input, time⟩ : Creation).Stands store (sha256Hex platform session.sid) time after
      ∧ session = (⟨store.usesKv, input, time⟩ : Creation).session session.sid time := by
  cases store with
  | d1 options => exact stands_createdRow rfl (serves_effect serves) unrevoked
  | pg options => exact stands_createdRow rfl (serves_effect serves) unrevoked
  | kv options =>
      obtain ⟨read, middle, ⟨reads, rfl⟩, run⟩ := evaluates_call.mp serves.2
      cases (reads : read = time)
      obtain ⟨calls, leads, executes⟩ := run.trace
      exact stands_createdRecord (kvSessionStore.create_leads (create_answer leads)) executes accounted
        past forward unrevoked

end WorkersAuth.Stores

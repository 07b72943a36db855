import WorkersAuth.Stores.Histories
import WorkersAuth.Stores.Revocations

/-! A KV store and a D1 store that share a revocation list on D1.
Calls are made one at a time while KV reads answer with any version ever written, or with
nothing. A tombstone is kept until its session has expired, and a user marker until every
session it revokes has, so that nothing the list forgets was still needed.
-/

namespace WorkersAuth.Stores

open Atomic Tables Program Windows

variable {platform : Platform}

-----------------------------------------------------------------------------------------
-- The two stores and their list
-----------------------------------------------------------------------------------------

structure SharedStores where
  list : RevocationList
  kv : KvSessionStoreOptions
  d1 : D1SessionStoreOptions
  kv_shares : kv.revocation = some list
  d1_shares : d1.revocation = some list

inductive Which where
  | kv
  | d1
  deriving DecidableEq

def SharedStores.store (stores : SharedStores) : Which → SessionStore
  | .kv => .kv stores.kv
  | .d1 => .d1 stores.d1

/-- A call of one of the stores, or of the list: `isRevoked(...)` or `cleanup()`. -/
inductive SharedCall where
  | store (which : Which) (request : Request)
  | isRevoked (sidHash userId : String) (createdAt : Millis)
  | cleanup

inductive SharedAnswer where
  | store (answer : Answer)
  | revoked (hit : Bool)
  | removed (rows : Nat)

def SharedStores.call (platform : Platform) (stores : SharedStores) : SharedCall → Task SharedAnswer
  | .store which request => return .store (← (stores.store which).call platform request)
  | .isRevoked sidHash userId createdAt => do
      let _ ← called
      return .revoked (← revocationList.isRevoked sidHash userId createdAt)
  | .cleanup => do
      let _ ← called
      return .removed (← revocationList.cleanup stores.list none)

structure SharedEvent where
  time : Millis
  call : SharedCall
  answer : SharedAnswer

/-- One call served alone over eventually consistent KV. -/
def SharedStores.Step (platform : Platform) (stores : SharedStores) (before : Storage)
    (event : SharedEvent) (after : Storage)
    : Prop :=
  Serves platform .eventual event.time (stores.call platform event.call) before event.answer after

/-- The event is the creation of a session in one of the stores. -/
def SharedEvent.Created (event : SharedEvent) (which : Which) (input : NewSession) (session : Session)
    : Prop :=
  event.call = .store which (.create input) ∧ event.answer = .store (.created (.ok session))

/-- The event is a call of one of the stores. -/
def SharedEvent.Calls (event : SharedEvent) (which : Which) (request : Request) : Prop :=
  event.call = .store which request

variable {stores : SharedStores} {before after : Storage} {event : SharedEvent}
  {sidHash userId : String}

-----------------------------------------------------------------------------------------
-- The effects of a call
-----------------------------------------------------------------------------------------

/-- How long a session can live at most. -/
def RevocationList.lifetime (list : RevocationList) : Millis := list.maxSessionLifetimeSec * sec

/-- The storage after the list's `cleanup` at a time. -/
def Storage.collected (storage : Storage) (time lifetime : Millis) : Storage :=
  {
    storage with
    now := time
    tombstones := storage.tombstones.deleteWhere (fun tombstone => tombstone.expiresAt ≤ time)
    userMarkers :=
      storage.userMarkers.deleteWhere (fun marker => marker.revokedBefore ≤ time - lifetime)
  }

/-- What a call of the pair does. -/
inductive SharedEffect (platform : Platform) (stores : SharedStores) (time : Millis) (before : Storage)
    : SharedCall → SharedAnswer → Storage → Prop
  | store {which : Which} {request : Request} {answer : Answer} {after : Storage}
    (serves : Serves platform .eventual time ((stores.store which).call platform request) before
      answer after)
    : SharedEffect platform stores time before (.store which request) (.store answer) after
  | asked {sidHash userId : String} {createdAt : Millis}
    : SharedEffect platform stores time before (.isRevoked sidHash userId createdAt)
        (.revoked (before.revokes sidHash userId time createdAt)) { before with now := time }
  | collected {rows : Nat}
    : SharedEffect platform stores time before .cleanup (.removed rows)
        (before.collected time stores.list.lifetime)

/-- Every call does one of these, by cases on the call. -/
theorem SharedStores.Step.effect (step : stores.Step platform before event after)
    : SharedEffect platform stores event.time before event.call event.answer after := by
  obtain ⟨time, call, answer⟩ := event
  obtain ⟨forward, run⟩ := step
  dsimp only at forward run ⊢
  cases call with
  | store which request =>
      obtain ⟨result, middle, serves, answers⟩ := evaluates_bind.mp run
      obtain ⟨rfl, rfl⟩ := evaluates_pure.mp answers
      exact .store ⟨forward, serves⟩
  | isRevoked sidHash userId createdAt =>
      obtain ⟨read, _, ⟨reads, rfl⟩, run⟩ := evaluates_call.mp run
      obtain ⟨listAt, _, ⟨lists, rfl⟩, run⟩ := evaluates_call.mp run
      obtain ⟨hit, _, asks, answers⟩ := evaluates_call.mp run
      obtain ⟨rfl, rfl⟩ := evaluates_pure.mp answers
      cases (reads : read = time)
      cases (lists : listAt = time)
      cases asks
      exact .asked
  | cleanup =>
      obtain ⟨read, _, ⟨reads, rfl⟩, run⟩ := evaluates_call.mp run
      obtain ⟨cutoff, _, ⟨cuts, rfl⟩, run⟩ := evaluates_call.mp run
      obtain ⟨rows, _, deletes, answers⟩ := evaluates_call.mp run
      obtain ⟨rfl, rfl⟩ := evaluates_pure.mp answers
      cases (reads : read = time)
      cases (cuts : cutoff = time)
      cases deletes
      exact .collected

-----------------------------------------------------------------------------------------
-- What every call keeps
-----------------------------------------------------------------------------------------

namespace SharedStores.Step

variable {creation : Creation} {deadline : Millis}

/-- Time moves forward. -/
theorem now_eq (step : stores.Step platform before event after) : after.now = event.time := by
  have effect := step.effect
  obtain ⟨time, call, answer⟩ := event
  dsimp only at effect ⊢
  cases effect with
  | store serves => exact (serves_effect serves).now
  | asked => rfl
  | collected => rfl

theorem accounted (step : stores.Step platform before event after) (kept : before.Accounted)
    : after.Accounted := by
  have effect := step.effect
  obtain ⟨time, call, answer⟩ := event
  dsimp only at effect
  cases effect with
  | store serves => exact (serves_effect serves).accounted kept
  | asked => exact ⟨kept.rows, kept.records, kept.record, kept.seen⟩
  | collected => exact ⟨kept.rows, kept.records, kept.record, kept.seen⟩

/-- A session keeps its id. -/
theorem owns (step : stores.Step platform before event after) (owned : creation.Owns sidHash before)
    : creation.Owns sidHash after := by
  have effect := step.effect
  obtain ⟨time, call, answer⟩ := event
  dsimp only at effect
  cases effect with
  | store serves => exact (serves_effect serves).owns owned
  | asked => exact ⟨owned.drawn, owned.row, owned.record⟩
  | collected => exact ⟨owned.drawn, owned.row, owned.record⟩

/-- A row that is gone stays gone. -/
theorem rowGone (step : stores.Step platform before event after) (drawn : sidHash ∈ before.drawn)
    (gone : before.rows.find sidHash = none)
    : sidHash ∈ after.drawn ∧ after.rows.find sidHash = none := by
  have effect := step.effect
  obtain ⟨time, call, answer⟩ := event
  dsimp only at effect
  cases effect with
  | store serves =>
      have effect := serves_effect serves
      exact ⟨effect.drawn_mono drawn, effect.rowGone drawn gone⟩
  | asked => exact ⟨drawn, gone⟩
  | collected => exact ⟨drawn, gone⟩

/-- A tombstone is retained until its deadline. -/
theorem tombstone (step : stores.Step platform before event after)
    (retained : Retained (before.tombstoneBound sidHash) deadline before.now)
    : Retained (after.tombstoneBound sidHash) deadline after.now := by
  have forward : before.now ≤ after.now := step.now_eq ▸ step.1
  have effect := step.effect
  obtain ⟨time, call, answer⟩ := event
  dsimp only at effect
  cases effect with
  | store serves => exact retained.raise ((serves_boundsRaised serves).tombstone sidHash) forward
  | asked => exact retained.raise (.refl _) forward
  | collected =>
      have later := (retained.raise (.refl _) forward).collect (le_refl time)
      simpa [Storage.collected, Storage.tombstoneBound, Option.filter_map, Function.comp_def,
        ← decide_not] using later

/-- A user marker is retained for the lifetime of a session past its deadline. -/
theorem marker (step : stores.Step platform before event after)
    (retained : Retained (before.markerBound userId) deadline (before.now - stores.list.lifetime))
    : Retained (after.markerBound userId) deadline (after.now - stores.list.lifetime) := by
  have forward : before.now ≤ after.now := step.now_eq ▸ step.1
  have forward := sub_le_sub_right forward stores.list.lifetime
  have effect := step.effect
  obtain ⟨time, call, answer⟩ := event
  dsimp only at effect
  cases effect with
  | store serves => exact retained.raise ((serves_boundsRaised serves).marker userId) forward
  | asked => exact retained.raise (.refl _) forward
  | collected =>
      have later := (retained.raise (.refl _) forward).collect (le_refl (time - stores.list.lifetime))
      simpa [Storage.collected, Storage.markerBound, Option.filter_map, Function.comp_def,
        ← decide_not] using later

end SharedStores.Step

-----------------------------------------------------------------------------------------
-- Sessions that are revoked
-----------------------------------------------------------------------------------------

/-- Whether the sessions of a store are kept in KV. -/
def Which.usesKv : Which → Bool
  | .kv => true
  | .d1 => false

theorem SharedStores.usesKv_store (stores : SharedStores) (which : Which)
    : (stores.store which).usesKv = which.usesKv := by
  cases which <;> rfl

/-- Both stores ask the list. -/
theorem SharedStores.revocation_store (stores : SharedStores) (which : Which)
    : (stores.store which).revocation.isSome = true := by
  cases which with
  | kv => simp [SharedStores.store, SessionStore.revocation, stores.kv_shares]
  | d1 => simp [SharedStores.store, SessionStore.revocation, stores.d1_shares]

/-- What a `revoke` on the store that holds a session leaves: a tombstone until the session has
expired, or no row.
-/
def Buried (which : Which) (sidHash : String) (expiresAt : Millis) (storage : Storage) : Prop :=
  match which with
  | .kv => Retained (storage.tombstoneBound sidHash) expiresAt storage.now
  | .d1 => sidHash ∈ storage.drawn ∧ storage.rows.find sidHash = none

variable {which other : Which} {creation : Creation} {sid : String} {session : Session}

/-- A buried session stays so. -/
theorem SharedStores.Step.buried {expiresAt : Millis} (step : stores.Step platform before event after)
    (buried : Buried which sidHash expiresAt before)
    : Buried which sidHash expiresAt after := by
  cases which with
  | kv => exact step.tombstone buried
  | d1 => exact step.rowGone buried.1 buried.2

/-- `revoke` buries the session that the store holds. -/
theorem SharedStores.Step.buries (step : stores.Step platform before event after)
    (revokes : event.Calls which (.revoke sid)) (accounted : before.Accounted)
    (owned : creation.Owns (sha256Hex platform sid) before) (created : creation.createdAt ≤ before.now)
    (short : creation.input.absoluteTtlSec ≤ stores.kv.tombstoneFallbackSec)
    : Buried which (sha256Hex platform sid) creation.absoluteExpiresAt after := by
  have owned' := step.owns owned
  have effect := step.effect
  obtain ⟨time, call, answer⟩ := event
  cases (revokes : call = _)
  dsimp only at effect
  cases effect with
  | store serves =>
      cases which with
      | d1 => exact ⟨owned'.drawn, d1Revoke_deletes serves⟩
      | kv =>
          refine .inl (kvRevoke_buries serves (by simp [stores.kv_shares]) accounted ?_ ?_)
          · intro pair member key
            rw [(owned.record pair member key).2]
            exact le_rfl
          · refine add_le_add (created.trans serves.1) ?_
            exact mul_le_mul_of_nonneg_right short (by norm_num [sec])

/-- No `get` finds a buried session. -/
theorem not_found_of_buried {time : Millis} (forward : before.now ≤ time) (accounted : before.Accounted)
    (owned : creation.Owns (sha256Hex platform sid) before) (kind : creation.usesKv = which.usesKv)
    (buried : Buried which (sha256Hex platform sid) creation.absoluteExpiresAt before)
    : ¬Found platform .eventual (stores.store other) time before sid session := by
  intro found
  cases found with
  | row sql stored live unrevoked =>
      have sql := (owned.row _ stored).1.symm.trans kind
      cases which with
      | kv => contradiction
      | d1 => exact absurd (stored.symm.trans buried.2) (by simp)
  | @record record seen recordTime seenTime usesKv recordForward read seenForward readSeen live unrevoked =>
      obtain ⟨pair, member, key, rfl⟩ := read.written accounted.record
      obtain ⟨usesKv, same⟩ := owned.record pair member key
      have unrevoked := unrevoked (stores.revocation_store other)
      rw [revokes_eq, Bool.or_eq_false_iff] at unrevoked
      simp only [StoredSession.expired, Bool.or_eq_false_iff, decide_eq_false_iff_not, not_le, same] at live
      have early : time < creation.absoluteExpiresAt := live.1
      cases which with
      | d1 => exact absurd (usesKv.symm.trans kind) (by simp [Which.usesKv])
      | kv =>
          obtain ⟨reach, there, reaches⟩ := Retained.reach buried (forward.trans_lt early)
          have late := unrevoked.1
          rw [Option.mem_def.mp there] at late
          simp only [Option.any_some, decide_eq_false_iff_not, not_lt] at late
          exact absurd (early.trans_le reaches) late.not_gt

/-- No `get` finds a session that was created no later than a retained marker of its user. -/
theorem not_found_of_marked {time revokedAt : Millis} (forward : before.now ≤ time)
    (accounted : before.Accounted) (owned : creation.Owns (sha256Hex platform sid) before)
    (marked : Retained (before.markerBound creation.input.userId) (revokedAt + 1)
      (before.now - stores.list.lifetime))
    (created : creation.createdAt ≤ revokedAt)
    (short : creation.input.absoluteTtlSec ≤ stores.list.maxSessionLifetimeSec)
    : ¬Found platform .eventual (stores.store other) time before sid session := by
  have refuse (early : time < creation.absoluteExpiresAt)
      (unrevoked : before.revokes (sha256Hex platform sid) creation.input.userId time creation.createdAt
        = false)
      : False := by
    have lives : creation.input.absoluteTtlSec * sec ≤ stores.list.lifetime :=
      mul_le_mul_of_nonneg_right short (by norm_num [sec])
    have needed : before.now - stores.list.lifetime < revokedAt + 1 := by
      simp only [Creation.absoluteExpiresAt] at early
      linarith
    obtain ⟨reach, there, reaches⟩ := marked.reach needed
    rw [revokes_eq, Bool.or_eq_false_iff] at unrevoked
    have late := unrevoked.2
    rw [Option.mem_def.mp there] at late
    simp only [Option.any_some, decide_eq_false_iff_not, not_lt] at late
    linarith
  intro found
  cases found with
  | row sql stored live unrevoked =>
      obtain ⟨_, user, at', absolute⟩ := owned.row _ stored
      have unrevoked := unrevoked (stores.revocation_store other)
      simp only [SessionRow.expired, Bool.or_eq_false_iff, decide_eq_false_iff_not, not_le] at live
      exact refuse (absolute ▸ live.2) (by rw [← user, ← at']; exact unrevoked)
  | record usesKv recordForward read seenForward readSeen live unrevoked =>
      obtain ⟨pair, member, key, rfl⟩ := read.written accounted.record
      obtain ⟨_, same⟩ := owned.record pair member key
      have unrevoked := unrevoked (stores.revocation_store other)
      simp only [StoredSession.expired, Bool.or_eq_false_iff, decide_eq_false_iff_not, not_le, same] at live
      exact refuse live.1 (by rwa [same] at unrevoked)

-----------------------------------------------------------------------------------------
-- Sessions that are not revoked
-----------------------------------------------------------------------------------------

/-- A session without tombstone gets none but by its own `revoke`. -/
theorem SharedStores.Step.unburied (step : stores.Step platform before event after)
    (other : ∀ which sid, event.Calls which (.revoke sid) → sha256Hex platform sid ≠ sidHash)
    (none : before.tombstoneBound sidHash = none)
    : after.tombstoneBound sidHash = .none := by
  have effect := step.effect
  obtain ⟨time, call, answer⟩ := event
  dsimp only at effect
  cases effect with
  | @store which request answer after serves =>
      refine (tombstoneBound_kept serves (fun sid revokes => ?_)).trans none
      exact other which sid (congrArg (SharedCall.store which) revokes)
  | asked => exact none
  | collected =>
      simp only [Storage.tombstoneBound, Option.map_eq_none_iff] at none
      simp [Storage.collected, Storage.tombstoneBound, none]

/-- The marker of a user stays below a limit that every `revokeAllForUser` precedes. -/
theorem SharedStores.Step.marker_le {limit : Millis} (step : stores.Step platform before event after)
    (early : ∀ which, event.Calls which (.revokeAllForUser userId) → event.time + 1 ≤ limit)
    (bounded : ∀ reach ∈ before.markerBound userId, reach ≤ limit)
    : ∀ reach ∈ after.markerBound userId, reach ≤ limit := by
  have effect := step.effect
  obtain ⟨time, call, answer⟩ := event
  dsimp only at effect early
  cases effect with
  | @store which request answer after serves =>
      exact markerBound_le serves (fun revokes => early which (congrArg (SharedCall.store which) revokes))
        bounded
  | asked => exact bounded
  | collected =>
      intro reach member
      simp only [Storage.collected, Storage.markerBound, Table.find_deleteWhere, Option.mem_def,
        Option.map_eq_some_iff, Option.filter_eq_some_iff] at member
      obtain ⟨marker, ⟨found, _⟩, rfl⟩ := member
      exact bounded _ (by simp [Storage.markerBound, found])

-----------------------------------------------------------------------------------------
-- Histories
-----------------------------------------------------------------------------------------

/-- A `get` that can find no session answers null. -/
theorem SharedStores.Step.null (step : stores.Step platform before event after)
    (gets : event.Calls which (.get sid))
    (none : ∀ session, ¬Found platform .eventual (stores.store which) event.time before sid session)
    : event.answer = .store (.found .none) := by
  have effect := step.effect
  obtain ⟨time, call, answer⟩ := event
  cases (gets : call = _)
  dsimp only at effect none ⊢
  cases effect with
  | store serves =>
      obtain ⟨found, rfl⟩ := get_answers serves
      cases found with
      | none => rfl
      | some session => exact absurd (get_found serves) (none session)

/-- How long the sessions that an event creates may live. -/
def SharedStores.Bounds (stores : SharedStores) (event : SharedEvent) : Prop :=
  ∀ which input, event.Calls which (.create input) →
    input.absoluteTtlSec ≤ stores.list.maxSessionLifetimeSec
    ∧ input.absoluteTtlSec ≤ stores.kv.tombstoneFallbackSec

variable {start : Millis} {past earlier later : List SharedEvent} {storage finish : Storage}
  {created : SharedEvent} {input : NewSession}

theorem accounted_of_history (run : Sequence (stores.Step platform) (.empty start) past storage)
    : storage.Accounted :=
  run.keeps Storage.Accounted (fun _ _ _ _ step kept => step.accounted kept) (accounted_empty start)

/-- Once created, a session has its id for itself. -/
theorem SharedStores.Step.creates (step : stores.Step platform before event after)
    (accounted : before.Accounted) (creates : event.Created which input session)
    : (⟨which.usesKv, input, event.time⟩ : Creation).Owns (sha256Hex platform session.sid) after
      ∧ session.userId = input.userId ∧ session.createdAt = event.time := by
  have effect := step.effect
  obtain ⟨time, call, answer⟩ := event
  obtain ⟨creates, created⟩ := creates
  cases (creates : call = _)
  cases (created : answer = _)
  dsimp only at effect ⊢
  cases effect with
  | store serves =>
      have effect := serves_effect serves
      obtain ⟨user, at', _⟩ := effect.created_session
      exact ⟨stores.usesKv_store which ▸ (effect.creates accounted).1, user, at'⟩

/-- A session created in a history owns its id at the end. -/
theorem owns_of_created (run : Sequence (stores.Step platform) (.empty start) past storage)
    (member : created ∈ past) (creates : created.Created which input session)
    : (⟨which.usesKv, input, created.time⟩ : Creation).Owns (sha256Hex platform session.sid) storage
      ∧ session.userId = input.userId ∧ session.createdAt = created.time := by
  obtain ⟨front, back, first, second, rfl, early, step, rest⟩ := run.cut member
  obtain ⟨owned, known⟩ := step.creates (accounted_of_history early) creates
  exact ⟨rest.keeps _ (fun _ _ _ _ step owned => step.owns owned) owned, known⟩

/-- Time moves forward over a history. -/
theorem now_le_of_history (run : Sequence (stores.Step platform) before past after)
    : before.now ≤ after.now :=
  run.keeps (fun storage => before.now ≤ storage.now)
    (fun _ _ _ _ step forward => forward.trans (step.now_eq ▸ step.1)) le_rfl

/-- After `revoke` on the store that holds a session every `get` of it answers null. -/
theorem null_after_revoke {front middle back : List SharedEvent} {revoked : SharedEvent}
    (run : Sequence (stores.Step platform) (.empty start) (front ++ created :: middle ++ revoked :: back)
      storage)
    (step : stores.Step platform storage event finish)
    (bounded : stores.Bounds created) (creates : created.Created which input session)
    (revokes : revoked.Calls which (.revoke session.sid)) (gets : event.Calls other (.get session.sid))
    : event.answer = .store (.found none) := by
  obtain ⟨owned, _⟩ := owns_of_created run (by simp) creates
  obtain ⟨first, early, rest⟩ := Sequence.append_iff.mp run
  obtain ⟨second, revoking, late⟩ := Sequence.cons_iff.mp rest
  obtain ⟨owner, _⟩ := owns_of_created early (by simp) creates
  have since : created.time ≤ first.now := by
    obtain ⟨before, _, between⟩ := Sequence.append_iff.mp early
    obtain ⟨after, creating, between⟩ := Sequence.cons_iff.mp between
    exact creating.now_eq ▸ now_le_of_history between
  have buried := revoking.buries revokes (accounted_of_history early) owner since
    (bounded which input creates.1).2
  have buried := late.keeps _ (fun _ _ _ _ step buried => step.buried buried) buried
  refine step.null gets (fun session => ?_)
  exact not_found_of_buried step.1 (accounted_of_history run) owned rfl buried

/-- After `revokeAllForUser` on either store every `get` of a session of the user that was created
no later answers null.
-/
theorem null_after_revokeAll {revoked : SharedEvent} {another : Which}
    (run : Sequence (stores.Step platform) (.empty start) past storage)
    (step : stores.Step platform storage event finish) (createdIn : created ∈ past)
    (bounded : stores.Bounds created) (creates : created.Created which input session)
    (revokedIn : revoked ∈ past) (revokes : revoked.Calls other (.revokeAllForUser session.userId))
    (early : session.createdAt ≤ revoked.time) (gets : event.Calls another (.get session.sid))
    : event.answer = .store (.found none) := by
  obtain ⟨owned, user, at'⟩ := owns_of_created run createdIn creates
  obtain ⟨front, back, first, second, rfl, _, revoking, late⟩ := run.cut revokedIn
  have marked : Retained (second.markerBound input.userId) (revoked.time + 1)
      (second.now - stores.list.lifetime) := by
    have effect := revoking.effect
    obtain ⟨time, call, answer⟩ := revoked
    cases (revokes : call = _)
    dsimp only at effect ⊢
    cases effect with
    | store serves => exact .inl (user ▸ revokeAllForUser_marks serves (stores.revocation_store other))
  have marked := late.keeps
    (fun storage => Retained (storage.markerBound input.userId) (revoked.time + 1)
      (storage.now - stores.list.lifetime))
    (fun _ _ _ _ step marked => step.marker marked) marked
  refine step.null gets (fun session => ?_)
  exact not_found_of_marked step.1 (accounted_of_history run) owned marked (at' ▸ early)
    (bounded which input creates.1).1

/-- A session that was not revoked, and whose user was not revoked at or after its creation, is not
on the list.
-/
theorem not_revoked (run : Sequence (stores.Step platform) (.empty start) past storage)
    (step : stores.Step platform storage event finish) (whole : ∀ event ∈ past, ∃ millis : ℤ, event.time = millis)
    (createdIn : created ∈ past) (creates : created.Created which input session)
    (single : ∀ revoked ∈ past, ∀ other sid, revoked.Calls other (.revoke sid) →
      sha256Hex platform sid ≠ sha256Hex platform session.sid)
    (user : ∀ revoked ∈ past, ∀ other, revoked.Calls other (.revokeAllForUser session.userId) →
      revoked.time < session.createdAt)
    (asks : event.call = .isRevoked (sha256Hex platform session.sid) session.userId session.createdAt)
    : event.answer = .revoked false := by
  have unburied := run.keeps
    (fun storage => storage.tombstoneBound (sha256Hex platform session.sid) = none)
    (fun event member _ _ step none => step.unburied (single event member) none) rfl
  have bounded := run.keeps
    (fun storage => ∀ reach ∈ storage.markerBound session.userId, reach ≤ session.createdAt)
    (fun event member _ _ step bounded => step.marker_le (fun which revokes => by
      have early := user event member which revokes
      obtain ⟨_, _, at'⟩ := owns_of_created run createdIn creates
      obtain ⟨creation, same⟩ := whole created createdIn
      obtain ⟨revocation, shown⟩ := whole event member
      rw [at', same, shown] at early ⊢
      exact_mod_cast Int.add_one_le_of_lt (by exact_mod_cast early)) bounded)
    (by simp [Storage.markerBound, Storage.empty])
  have effect := step.effect
  obtain ⟨time, call, answer⟩ := event
  cases (asks : call = _)
  dsimp only at effect ⊢
  cases effect with
  | asked =>
      congr 1
      rw [revokes_eq, unburied]
      cases found : storage.markerBound session.userId with
      | none => rfl
      | some reach => simpa using bounded reach found

/-- With a shared list revocation is final even over a stale KV. While no session is created for
longer than `maxSessionLifetimeSec` or `tombstoneFallbackSec`: after `revoke` on the store that
holds a session, and after `revokeAllForUser` of its user on either store at or after its
creation, every `get` of it answers null; and on a clock of whole milliseconds `isRevoked` does
not answer true for a session that was not revoked itself and was created after every
`revokeAllForUser` of its user.
-/
theorem sharedRevocation_final
    (run : Sequence (stores.Step platform) (.empty start) past storage)
    (step : stores.Step platform storage event finish)
    (bounded : ∀ event ∈ past, stores.Bounds event)
    : (∀ front created middle revoked back, past = front ++ created :: middle ++ revoked :: back →
        ∀ which other input session, created.Created which input session →
          revoked.Calls which (.revoke session.sid) → event.Calls other (.get session.sid) →
          event.answer = .store (.found none))
      ∧ (∀ created ∈ past, ∀ revoked ∈ past, ∀ which other another input session,
          created.Created which input session →
          revoked.Calls other (.revokeAllForUser session.userId) → session.createdAt ≤ revoked.time →
          event.Calls another (.get session.sid) → event.answer = .store (.found none))
      ∧ ∀ created ∈ past, ∀ which input session, created.Created which input session →
          (∀ revoked ∈ past, ∀ other sid, revoked.Calls other (.revoke sid) →
            sha256Hex platform sid ≠ sha256Hex platform session.sid) →
          (∀ revoked ∈ past, ∀ other, revoked.Calls other (.revokeAllForUser session.userId) →
            revoked.time < session.createdAt) →
          (∀ event ∈ past, ∃ millis : ℤ, event.time = millis) →
          event.call = .isRevoked (sha256Hex platform session.sid) session.userId session.createdAt →
          event.answer = .revoked false := by
  refine ⟨?_, ?_, ?_⟩
  · rintro front created middle revoked back rfl which other input session creates revokes gets
    exact null_after_revoke run step (bounded created (by simp)) creates revokes gets
  · intro created createdIn revoked revokedIn which other another input session creates revokes early gets
    exact null_after_revokeAll run step createdIn (bounded created createdIn) creates revokedIn revokes
      early gets
  · intro created createdIn which input session creates single user whole asks
    exact not_revoked run step whole createdIn creates single user asks

-----------------------------------------------------------------------------------------
-- A history that is computed
-----------------------------------------------------------------------------------------

namespace Sample

def sharedStores : SharedStores where
  list := {}
  kv := { revocation := some {}, constructed := .inl rfl }
  d1 := { revocation := some {} }
  kv_shares := rfl
  d1_shares := rfl

/-- A call of the pair, computed. -/
def serveShared (input : Outside × SharedCall) (before : Storage) : Option (SharedEvent × Storage) :=
  (computeServed Sample.platform .eventual input.1 (sharedStores.call Sample.platform input.2) before).map
    (fun served => (⟨input.1.now, input.2, served.1⟩, served.2))

theorem step_of_serveShared {input : Outside × SharedCall} {before after : Storage} {event : SharedEvent}
    (served : serveShared input before = some (event, after))
    : sharedStores.Step Sample.platform before event after ∧ event.call = input.2 := by
  obtain ⟨⟨answer, finish⟩, computed, same⟩ := Option.map_eq_some_iff.mp served
  cases same
  exact ⟨serves_of_computed computed, rfl⟩

/-- The event creates the sample's session in KV, for short enough. -/
def createdInKv (event : SharedEvent) : Bool :=
  match event with
  | ⟨_, .store .kv (.create input), .store (.created (.ok session))⟩ =>
      session.sid = Sample.sid
      && (input.absoluteTtlSec ≤ sharedStores.list.maxSessionLifetimeSec
        && input.absoluteTtlSec ≤ sharedStores.kv.tombstoneFallbackSec)
  | _ => false

theorem createdInKv_created {event : SharedEvent} (check : createdInKv event = true)
    : ∃ input session, event.Created .kv input session ∧ session.sid = Sample.sid
        ∧ sharedStores.Bounds event := by
  unfold createdInKv at check
  split at check
  · simp only [Bool.and_eq_true, decide_eq_true_eq] at check
    obtain ⟨same, short⟩ := check
    refine ⟨_, _, ⟨rfl, rfl⟩, same, ?_⟩
    rintro which input ⟨⟩
    exact short
  · contradiction

/-- The event revokes the sample's session in KV. -/
def revokedInKv (event : SharedEvent) : Bool :=
  match event.call with
  | .store .kv (.revoke sid) => sid = Sample.sid
  | _ => false

theorem revokedInKv_revokes {event : SharedEvent} (check : revokedInKv event = true)
    : event.Calls .kv (.revoke Sample.sid) ∧ sharedStores.Bounds event := by
  obtain ⟨time, call, answer⟩ := event
  simp only [revokedInKv] at check
  split at check
  · obtain rfl := of_decide_eq_true check
    exact ⟨rfl, fun which input creates => by cases creates⟩
  · contradiction

/-- The event cleans the list. -/
def cleanedList (event : SharedEvent) : Bool :=
  match event.call with
  | .cleanup => true
  | _ => false

theorem cleanedList_bounds {event : SharedEvent} (check : cleanedList event = true)
    : sharedStores.Bounds event := by
  obtain ⟨time, call, answer⟩ := event
  rintro which input ⟨⟩
  contradiction

/-- The session is created, it is revoked, and the list is cleaned. -/
def revokedAndCleaned : List SharedEvent → Bool
  | [created, revoked, cleaned] =>
      createdInKv created && revokedInKv revoked && cleanedList cleaned
  | _ => false

end Sample

/-- A session is revoked while KV does not show its record, the list is cleaned, and the record
reappears: `get` answers null.
-/
theorem sharedRevocation_final_played
    : ∃ past storage finish, ∃ event : SharedEvent, ∃ session : Session,
        Sequence (Sample.sharedStores.Step Sample.platform) Sample.empty past storage
        ∧ Sample.sharedStores.Step Sample.platform storage event finish
        ∧ event.Calls .kv (.get session.sid) ∧ event.answer = .store (.found none) := by
  have passes : (Sequence.play Sample.serveShared Sample.empty [
      ({ token := Sample.sid }, .store .kv (.create Sample.input)),
      ({ now := 1000 }, .store .kv (.revoke Sample.sid)),
      ({ now := 2000 }, .cleanup)
    ]).any (fun early =>
      (Sample.serveShared ({ now := 3000, version := some 0 }, .store .kv (.get Sample.sid)) early.2).isSome
      && Sample.revokedAndCleaned early.1) = true := by
    decide +kernel
  obtain ⟨⟨past, storage⟩, played, passes⟩ := (Option.any_eq_true ..).mp passes
  obtain ⟨last, known⟩ := (Bool.and_eq_true ..).mp passes
  obtain ⟨⟨event, finish⟩, served⟩ := Option.isSome_iff_exists.mp last
  obtain ⟨step, gets⟩ := Sample.step_of_serveShared served
  have run : Sequence (Sample.sharedStores.Step Sample.platform) Sample.empty past storage := by
    refine Sequence.of_play (fun input before event after served => ?_) played
    exact (Sample.step_of_serveShared served).1
  dsimp only at known run
  unfold Sample.revokedAndCleaned at known
  split at known
  · next created revoked cleaned =>
      simp only [Bool.and_eq_true] at known
      obtain ⟨⟨created', revoked'⟩, cleaned'⟩ := known
      obtain ⟨input, session, creates, same, short⟩ := Sample.createdInKv_created created'
      obtain ⟨revokes, nothing⟩ := Sample.revokedInKv_revokes revoked'
      rw [← same] at gets revokes
      have final := sharedRevocation_final run step (by
        intro event member
        simp only [List.mem_cons, List.not_mem_nil, or_false] at member
        rcases member with rfl | rfl | rfl
        · exact short
        · exact nothing
        · exact Sample.cleanedList_bounds cleaned')
      refine ⟨_, storage, finish, event, session, run, step, gets, ?_⟩
      exact final.1 [] created [] revoked [cleaned] rfl .kv .kv input session creates revokes gets
  · contradiction

end WorkersAuth.Stores

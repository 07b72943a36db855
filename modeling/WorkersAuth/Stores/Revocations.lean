import WorkersAuth.Stores.OneAtATime
import WorkersAuth.Windows.Retention

/-! What is written to the revocation list, and what stays there.
A tombstone and a user marker are each a bound that upserts only raise. Requests of a store
never lower or remove one; the list's own `cleanup` removes those it may.
-/

namespace WorkersAuth.Stores

open Atomic Tables Program Windows

variable {platform : Platform} {consistency : Consistency} {time : Millis} {before after : Storage}
  {sidHash userId : String} {store : SessionStore} {request : Request}

-----------------------------------------------------------------------------------------
-- Bounds
-----------------------------------------------------------------------------------------

/-- Until when a tombstone of a session holds. -/
def Storage.tombstoneBound (storage : Storage) (sidHash : String) : Option Millis :=
  (storage.tombstones.find sidHash).map Tombstone.expiresAt

/-- Before when the sessions of a user are revoked. -/
def Storage.markerBound (storage : Storage) (userId : String) : Option Millis :=
  (storage.userMarkers.find userId).map UserMarker.revokedBefore

/-- What `isRevoked` answers, by the two bounds. -/
theorem revokes_eq {readAt createdAt : Millis}
    : before.revokes sidHash userId readAt createdAt
      = ((before.tombstoneBound sidHash).any (fun expiresAt => readAt < expiresAt)
        || (before.markerBound userId).any (fun revokedBefore => createdAt < revokedBefore)) := by
  simp only [Storage.revokes, Storage.tombstoneBound, Storage.markerBound, Option.any_map]

/-- No bound has gone or been lowered. -/
structure BoundsRaised (before after : Storage) : Prop where
  tombstone : ∀ sidHash, Raised (before.tombstoneBound sidHash) (after.tombstoneBound sidHash)
  marker : ∀ userId, Raised (before.markerBound userId) (after.markerBound userId)

theorem BoundsRaised.of_eq (tombstones : after.tombstones = before.tombstones)
    (markers : after.userMarkers = before.userMarkers)
    : BoundsRaised before after where
  tombstone sidHash := by
    simp only [Storage.tombstoneBound, tombstones]
    exact .refl _
  marker userId := by
    simp only [Storage.markerBound, markers]
    exact .refl _

theorem BoundsRaised.refl (storage : Storage) : BoundsRaised storage storage := .of_eq rfl rfl

theorem BoundsRaised.trans {first second third : Storage} (one : BoundsRaised first second)
    (two : BoundsRaised second third)
    : BoundsRaised first third where
  tombstone sidHash := (one.tombstone sidHash).trans (two.tombstone sidHash)
  marker userId := (one.marker userId).trans (two.marker userId)

-----------------------------------------------------------------------------------------
-- One operation
-----------------------------------------------------------------------------------------

section Operations

variable {guarantees : Guarantees} {op : Op} {reply : op.Reply}

/-- A deletion leaves the revocation list alone. -/
theorem lists_delete (storage : Storage) (deletion : Deletion)
    : (storage.delete deletion).tombstones = storage.tombstones
      ∧ (storage.delete deletion).userMarkers = storage.userMarkers := by
  cases deletion <;> exact ⟨rfl, rfl⟩

/-- An operation that does not write to the list leaves it alone, by cases on the operation. -/
theorem lists_eq (executes : exec platform guarantees op before reply after) (other : op.lists = false)
    : after.tombstones = before.tombstones ∧ after.userMarkers = before.userMarkers := by
  cases op with
  | called => obtain ⟨_, rfl⟩ := executes; exact ⟨rfl, rfl⟩
  | clock => obtain ⟨_, rfl⟩ := executes; exact ⟨rfl, rfl⟩
  | listClock => obtain ⟨_, rfl⟩ := executes; exact ⟨rfl, rfl⟩
  | randomToken => obtain ⟨_, rfl⟩ := executes; exact ⟨rfl, rfl⟩
  | recordFirst => cases executes; exact ⟨rfl, rfl⟩
  | kv call =>
      obtain ⟨time, _, rfl, _⟩ := executes
      cases call <;> exact ⟨rfl, rfl⟩
  | statement query =>
      cases query with
      | insertRow row =>
          obtain ⟨rows, _, same⟩ := Option.map_eq_some_iff.mp executes
          cases same
          exact ⟨rfl, rfl⟩
      | delete deletion =>
          cases executes
          exact lists_delete before deletion
      | land deletion =>
          simp only [exec, Statement.run] at executes
          split at executes
          · cases executes
            exact lists_delete before deletion
          · contradiction
      | upsertTombstone sidHash expiresAt revokedAt => contradiction
      | upsertUserMarker userId revokedBefore revokedAt => contradiction
      | deleteRevocations cutoff markerCutoff => contradiction
      | _ => cases executes; exact ⟨rfl, rfl⟩

/-- A tombstone that is written reaches at least as far as it should. -/
theorem tombstoneBound_upsert {expiresAt revokedAt : Millis} {reply : Unit}
    (executes : exec platform guarantees (.statement (.upsertTombstone sidHash expiresAt revokedAt))
      before reply after)
    : after.markerBound = before.markerBound
      ∧ ∀ sought, after.tombstoneBound sought
        = if sought = sidHash then
            some (((before.tombstoneBound sidHash).map (max · expiresAt)).getD expiresAt)
          else before.tombstoneBound sought := by
  cases executes
  refine ⟨rfl, fun sought => ?_⟩
  simp only [Storage.tombstoneBound, Table.find_upsert]
  split
  · next same =>
      cases before.tombstones.find sidHash <;> rfl
  · rfl

/-- So does a user marker. -/
theorem markerBound_upsert {revokedBefore revokedAt : Millis} {reply : Unit}
    (executes : exec platform guarantees (.statement (.upsertUserMarker userId revokedBefore revokedAt))
      before reply after)
    : after.tombstoneBound = before.tombstoneBound
      ∧ ∀ sought, after.markerBound sought
        = if sought = userId then
            some (((before.markerBound userId).map (max · revokedBefore)).getD revokedBefore)
          else before.markerBound sought := by
  cases executes
  refine ⟨rfl, fun sought => ?_⟩
  simp only [Storage.markerBound, Table.find_upsert]
  split
  · next same =>
      cases before.userMarkers.find userId <;> rfl
  · rfl

/-- A bound that is replaced by the higher of two has not been lowered. -/
theorem raised_max {bound : Option Millis} {added : Millis}
    : Raised bound (some ((bound.map (max · added)).getD added)) := by
  intro reach member
  cases member
  exact ⟨_, rfl, le_max_left _ _⟩

/-- The higher of two bounds is at least the one that was added. -/
theorem le_raised {bound : Option Millis} {added : Millis}
    : added ≤ (bound.map (max · added)).getD added := by
  cases bound with
  | none => exact le_rfl
  | some old => exact le_max_right _ _

/-- Every operation but the list's own deletion keeps the bounds, by cases on the operation. -/
theorem boundsRaised (executes : exec platform guarantees op before reply after)
    (spares : ∀ cutoff markerCutoff, op ≠ .statement (.deleteRevocations cutoff markerCutoff))
    : BoundsRaised before after := by
  cases other : op.lists with
  | false =>
      obtain ⟨tombstones, markers⟩ := lists_eq executes other
      exact .of_eq tombstones markers
  | true =>
      cases op with
      | statement query =>
          cases query with
          | upsertTombstone sidHash expiresAt revokedAt =>
              refine ⟨fun sought => ?_, fun userId => ?_⟩
              · rw [(tombstoneBound_upsert executes).2]
                split
                · next same => exact same ▸ raised_max
                · exact .refl _
              · rw [(tombstoneBound_upsert executes).1]
                exact .refl _
          | upsertUserMarker userId revokedBefore revokedAt =>
              refine ⟨fun sidHash => ?_, fun sought => ?_⟩
              · rw [(markerBound_upsert executes).1]
                exact .refl _
              · rw [(markerBound_upsert executes).2]
                split
                · next same => exact same ▸ raised_max
                · exact .refl _
          | deleteRevocations cutoff markerCutoff => exact absurd rfl (spares _ _)
          | _ => contradiction
      | _ => contradiction

end Operations

-----------------------------------------------------------------------------------------
-- What a request writes
-----------------------------------------------------------------------------------------

/-- The clock shows a time whenever it is read. -/
def Op.ReadsAt (time : Millis) : (op : Op) → op.Reply → Prop
  | .called, read => read = time
  | .clock, read => read = time
  | .listClock, read => read = time
  | _, _ => True

/-- While the clock stands still it shows one time. -/
theorem readsAt_of_stopped {op : Op} {reply : op.Reply}
    (executes : exec platform (stopped time consistency) op before reply after)
    : op.ReadsAt time reply := by
  cases op with
  | called => exact executes.1
  | clock => exact executes.1
  | listClock => exact executes.1
  | _ => trivial

/-- What a request may write to the revocation list, at a time. -/
def Request.Lists (platform : Platform) (time : Millis) (request : Request) : Op → Prop
  | .statement (.upsertTombstone sidHash _ _) =>
      ∃ sid, request = .revoke sid ∧ sha256Hex platform sid = sidHash
  | .statement (.upsertUserMarker userId revokedBefore _) =>
      request = .revokeAllForUser userId ∧ revokedBefore = time + 1
  | .statement (.deleteRevocations ..) => False
  | _ => True

/-- An operation that does not write to the list is allowed to every request. -/
theorem Request.lists_of_not {op : Op} (other : op.lists = false) : request.Lists platform time op := by
  cases op with
  | statement query => cases query <;> trivial
  | _ => trivial

/-- A plain task is allowed to every request. -/
theorem Plain.lists {α : Type} {task : Task α} (plain : Plain task)
    : task.WithinWhen (Op.ReadsAt time) (request.Lists platform time) := by
  refine (plain.withinWhen).mono (fun op both => ?_)
  obtain ⟨_, other⟩ := (Bool.and_eq_true ..).mp both
  exact Request.lists_of_not (by simpa using other)

/-- A program of operations that do not write to the list. -/
theorem lists_of_within {α : Type} {task : Task α} (within : task.Within (fun op => op.lists = false))
    : task.WithinWhen (Op.ReadsAt time) (request.Lists platform time) :=
  (within.withinWhen).mono (fun _ => Request.lists_of_not)

/-- `create` does not write to the list. -/
theorem create_lists {input : NewSession}
    : (store.answer platform (.create input)).WithinWhen (Op.ReadsAt time)
        (request.Lists platform time) := by
  refine lists_of_within (Within.bind ?_ (fun _ => trivial))
  cases store with
  | d1 options =>
      simp only [SessionStore.create, d1SessionStore.create, sqlSessionStore.create]
      split <;> simp [Op.lists]
  | pg options =>
      simp only [SessionStore.create, pgSessionStore.create, sqlSessionStore.create]
      split <;> simp [Op.lists]
  | kv options =>
      simp only [SessionStore.create, kvSessionStore.create]
      split <;> simp [Op.lists]

/-- `touch` does not write to the list. -/
theorem touch_lists {isolate : Nat} {sid : String} {idleExpiresAt : Millis}
    : (store.answer platform (.touch isolate sid idleExpiresAt)).WithinWhen (Op.ReadsAt time)
        (request.Lists platform time) := by
  refine lists_of_within (Within.bind ?_ (fun _ => trivial))
  cases store with
  | d1 options => exact .perform rfl (fun _ => within_perform _ _ |>.mpr rfl)
  | pg options => exact .perform rfl (fun _ => within_perform _ _ |>.mpr rfl)
  | kv options =>
      refine .perform rfl (fun readAt => ?_)
      split
      · trivial
      · refine .perform rfl (fun admitted => ?_)
        cases admitted with
        | false => trivial
        | true => exact within_perform _ _ |>.mpr rfl

/-- Reading a record or a row and then writing the tombstone, as `revoke` does. -/
theorem tombstone_lists {sid : String} {expiresAt : Millis}
    : (revocationList.revoke (sha256Hex platform sid) expiresAt).WithinWhen (Op.ReadsAt time)
        (Request.Lists platform time (.revoke sid)) :=
  .perform trivial (fun _ _ => withinWhen_perform.mpr ⟨sid, rfl, rfl⟩)

/-- `revoke` writes only a tombstone of its session. -/
theorem revoke_lists {sid : String}
    : (store.answer platform (.revoke sid)).WithinWhen (Op.ReadsAt time)
        (Request.Lists platform time (.revoke sid)) := by
  have sql (revocation : Option RevocationList)
      : (sqlSessionStore.revoke platform revocation sid).WithinWhen (Op.ReadsAt time)
          (Request.Lists platform time (.revoke sid)) := by
    refine WithinWhen.bind ?_ (fun _ => withinWhen_perform.mpr trivial)
    cases revocation with
    | none => trivial
    | some list =>
        refine .perform trivial (fun found _ => ?_)
        cases found with
        | none => trivial
        | some row => exact tombstone_lists
  refine WithinWhen.bind ?_ (fun _ => trivial)
  cases store with
  | d1 options => exact sql options.revocation
  | pg options => exact sql none
  | kv options =>
      refine .perform trivial (fun record _ => ?_)
      refine WithinWhen.bind ?_ (fun _ => plain_forget.lists)
      unfold kvSessionStore.tombstone
      cases options.revocation with
      | none => trivial
      | some list =>
          refine WithinWhen.bind ?_ (fun expiresAt => tombstone_lists)
          cases record with
          | none => exact .perform trivial (fun _ _ => trivial)
          | some record => trivial

/-- Reading the clock and then writing the marker, as `revokeAllForUser` does. -/
theorem marker_lists
    : (do revocationList.revokeUser userId ((← now) + 1) : Task Unit).WithinWhen (Op.ReadsAt time)
        (Request.Lists platform time (.revokeAllForUser userId)) := by
  refine .perform trivial (fun readAt reads => .perform trivial (fun _ _ => withinWhen_perform.mpr ?_))
  cases (reads : readAt = time)
  exact ⟨rfl, rfl⟩

/-- `revokeAllForUser` writes only a marker of its user. -/
theorem revokeAllForUser_lists
    : (store.answer platform (.revokeAllForUser userId)).WithinWhen (Op.ReadsAt time)
        (Request.Lists platform time (.revokeAllForUser userId)) := by
  have sql (revocation : Option RevocationList)
      : (sqlSessionStore.revokeAllForUser revocation userId).WithinWhen (Op.ReadsAt time)
          (Request.Lists platform time (.revokeAllForUser userId)) := by
    refine WithinWhen.bind ?_ (fun _ => withinWhen_perform.mpr trivial)
    cases revocation with
    | none => trivial
    | some list => exact marker_lists
  refine WithinWhen.bind ?_ (fun _ => trivial)
  cases store with
  | d1 options => exact sql options.revocation
  | pg options => exact sql none
  | kv options =>
      simp only [SessionStore.revokeAllForUser, kvSessionStore.revokeAllForUser]
      cases options.revocation with
      | none => trivial
      | some list => exact marker_lists

/-- What any request writes to the list, by cases on the request. -/
theorem answer_lists
    : (store.answer platform request).WithinWhen (Op.ReadsAt time) (request.Lists platform time) := by
  cases request with
  | create input => exact create_lists
  | get sid => exact plain_get.lists
  | touch isolate sid idleExpiresAt => exact touch_lists
  | revoke sid => exact revoke_lists
  | revokeAllForUser userId => exact revokeAllForUser_lists
  | cleanup cutoff => exact plain_cleanup.lists
  | land deletion => exact plain_land.lists

/-- A call served alone, as the operations it makes, with what each may write to the list. -/
theorem serves_lists {answer : Answer}
    (serves : Serves platform consistency time (store.call platform request) before answer after)
    : ∃ calls, (store.answer platform request).Leads calls (.pure answer)
        ∧ Executes (exec platform (stopped time consistency)) { before with now := time } calls after
        ∧ ∀ made ∈ calls, request.Lists platform time made.op := by
  obtain ⟨read, middle, noted, run⟩ := evaluates_call.mp serves.2
  obtain ⟨reads, rfl⟩ := noted
  cases (reads : read = time)
  exact run.trace_when (fun _ => True) answer_lists
    (fun _ _ _ _ executes _ => ⟨readsAt_of_stopped executes, trivial⟩) trivial

-----------------------------------------------------------------------------------------
-- What becomes of the bounds
-----------------------------------------------------------------------------------------

section Calls

variable {guarantees : Guarantees} {calls : List Made} {answer : Answer}

/-- Operations allowed to a request keep the bounds. -/
theorem boundsRaised_of_executes (executes : Executes (exec platform guarantees) before calls after)
    (lists : ∀ made ∈ calls, request.Lists platform time made.op)
    : BoundsRaised before after := by
  refine executes.relates BoundsRaised.refl BoundsRaised.trans (fun made member _ _ taken => ?_)
  refine boundsRaised taken (fun cutoff markerCutoff same => ?_)
  have allowed := lists made member
  rw [same] at allowed
  exact allowed

/-- A call of a store keeps the bounds. -/
theorem serves_boundsRaised
    (serves : Serves platform consistency time (store.call platform request) before answer after)
    : BoundsRaised before after := by
  obtain ⟨calls, _, executes, lists⟩ := serves_lists serves
  have raised := boundsRaised_of_executes executes lists
  exact ⟨raised.tombstone, raised.marker⟩

/-- Only a revocation of the session writes its tombstone. -/
theorem tombstoneBound_kept
    (serves : Serves platform consistency time (store.call platform request) before answer after)
    (other : ∀ sid, request = .revoke sid → sha256Hex platform sid ≠ sidHash)
    : after.tombstoneBound sidHash = before.tombstoneBound sidHash := by
  obtain ⟨calls, _, executes, lists⟩ := serves_lists serves
  refine executes.keeps (fun storage => storage.tombstoneBound sidHash = before.tombstoneBound sidHash)
    (fun made member _ _ taken same => Eq.trans ?_ same) rfl
  have allowed := lists made member
  cases writes : made.op.lists with
  | false => simp only [Storage.tombstoneBound, (lists_eq taken writes).1]
  | true =>
      obtain ⟨op, reply⟩ := made
      cases op with
      | statement query =>
          cases query with
          | upsertTombstone written expiresAt revokedAt =>
              obtain ⟨sid, revokes, rfl⟩ := allowed
              rw [(tombstoneBound_upsert taken).2, if_neg (Ne.symm (other sid revokes))]
          | upsertUserMarker userId revokedBefore revokedAt => rw [(markerBound_upsert taken).1]
          | deleteRevocations cutoff markerCutoff => exact allowed.elim
          | _ => contradiction
      | _ => contradiction

/-- A marker that is written is that of the moment after the call. -/
theorem markerBound_le {limit : Millis}
    (serves : Serves platform consistency time (store.call platform request) before answer after)
    (late : request = .revokeAllForUser userId → time + 1 ≤ limit)
    (bounded : ∀ reach ∈ before.markerBound userId, reach ≤ limit)
    : ∀ reach ∈ after.markerBound userId, reach ≤ limit := by
  obtain ⟨calls, _, executes, lists⟩ := serves_lists serves
  refine executes.keeps (fun storage => ∀ reach ∈ storage.markerBound userId, reach ≤ limit)
    (fun made member before after taken bounded => ?_) bounded
  have allowed := lists made member
  cases writes : made.op.lists with
  | false => simpa only [Storage.markerBound, (lists_eq taken writes).2] using bounded
  | true =>
      obtain ⟨op, reply⟩ := made
      cases op with
      | statement query =>
          cases query with
          | upsertTombstone written expiresAt revokedAt =>
              rwa [(tombstoneBound_upsert taken).1]
          | upsertUserMarker marked revokedBefore revokedAt =>
              obtain ⟨revokes, rfl⟩ := allowed
              rw [(markerBound_upsert taken).2]
              split
              · next same =>
                  subst same
                  rintro reach ⟨⟩
                  cases found : before.markerBound userId with
                  | none => exact late revokes
                  | some old => exact max_le (bounded old found) (late revokes)
              · exact bounded
          | deleteRevocations cutoff markerCutoff => exact allowed.elim
          | _ => contradiction
      | _ => contradiction

/-- The trace of writing a marker. -/
theorem marks_leads {answer : Unit}
    (leads : (do revocationList.revokeUser userId ((← now) + 1) : Task Unit).Leads calls (.pure answer))
    : ∃ readAt listAt, calls
        = [.clock readAt, ⟨.listClock, listAt⟩, .did (.upsertUserMarker userId (readAt + 1) listAt) ()] := by
  simp only [revocationList.revokeUser, perform_bind, leads_call_pure, leads_perform] at leads
  obtain ⟨readAt, _, rfl, listAt, _, rfl, rfl⟩ := leads
  exact ⟨readAt, listAt, rfl⟩

/-- Writing a marker makes it reach past the time. -/
theorem marks_executes {answer : Unit}
    (leads : (do revocationList.revokeUser userId ((← now) + 1) : Task Unit).Leads calls (.pure answer))
    (executes : Executes (exec platform (stopped time consistency)) before calls after)
    : ∃ reach ∈ after.markerBound userId, time + 1 ≤ reach := by
  obtain ⟨readAt, listAt, rfl⟩ := marks_leads leads
  simp only [Sequence.cons_iff, Sequence.nil_iff, Made.clock, Made.did] at executes
  obtain ⟨_, ⟨reads, rfl⟩, _, ⟨_, rfl⟩, _, upserts, rfl⟩ := executes
  cases (reads : readAt = time)
  rw [(markerBound_upsert upserts).2, if_pos rfl]
  exact ⟨_, rfl, le_raised⟩

/-- After `revokeAllForUser` of a store with a revocation list the user's marker reaches past the
time of the call.
-/
theorem revokeAllForUser_marks
    (serves : Serves platform consistency time (store.call platform (.revokeAllForUser userId)) before
      answer after)
    (shares : store.revocation.isSome = true)
    : ∃ reach ∈ after.markerBound userId, time + 1 ≤ reach := by
  obtain ⟨calls, leads, executes, lists⟩ := serves_lists serves
  have revokes := revokeAllForUser_answer leads
  cases store with
  | d1 options =>
      obtain ⟨markers, marks, rfl⟩ := sqlSessionStore.revokeAllForUser_leads revokes
      obtain ⟨middle, first, rest⟩ := Sequence.append_iff.mp executes
      obtain ⟨list, same⟩ := Option.isSome_iff_exists.mp shares
      simp only [SessionStore.revocation] at same
      rw [same] at marks
      obtain ⟨reach, member, reaches⟩ := marks_executes marks first
      have raised := boundsRaised_of_executes rest
        (fun made member => lists made (List.mem_append_right _ member))
      obtain ⟨higher, there, le⟩ := raised.marker userId reach member
      exact ⟨higher, there, reaches.trans le⟩
  | pg options => contradiction
  | kv options =>
      obtain ⟨list, same⟩ := Option.isSome_iff_exists.mp shares
      simp only [SessionStore.revocation] at same
      simp only [SessionStore.revokeAllForUser, kvSessionStore.revokeAllForUser, same] at revokes
      exact marks_executes revokes executes

/-- Writing a tombstone makes it reach to the given expiry. -/
theorem tombstone_executes {expiresAt : Millis} {answer : Unit}
    (leads : (revocationList.revoke sidHash expiresAt).Leads calls (.pure answer))
    (executes : Executes (exec platform guarantees) before calls after)
    : ∃ reach ∈ after.tombstoneBound sidHash, expiresAt ≤ reach := by
  simp only [revocationList.revoke, perform_bind, leads_call_pure, leads_perform] at leads
  obtain ⟨listAt, _, rfl, rfl⟩ := leads
  simp only [Sequence.cons_iff, Sequence.nil_iff] at executes
  obtain ⟨_, ⟨_, rfl⟩, _, upserts, rfl⟩ := executes
  rw [(tombstoneBound_upsert upserts).2, if_pos rfl]
  exact ⟨_, rfl, le_raised⟩

/-- After `revoke` of a KV store with a revocation list the session's tombstone reaches to the
absolute expiry of every version of the record, and of every session short enough if KV does
not show the record.
-/
theorem kvRevoke_buries {options : KvSessionStoreOptions} {sid : String} {expiresAt : Millis}
    (serves : Serves platform consistency time ((SessionStore.kv options).call platform (.revoke sid))
      before answer after)
    (shares : options.revocation.isSome = true) (accounted : before.Accounted)
    (versions : ∀ pair ∈ before.records.written, pair.key = sha256Hex platform sid →
      expiresAt ≤ pair.value.absoluteExpiresAt)
    (fallback : expiresAt ≤ time + options.tombstoneFallbackSec * sec)
    : ∃ reach ∈ after.tombstoneBound (sha256Hex platform sid), expiresAt ≤ reach := by
  obtain ⟨calls, leads, executes, lists⟩ := serves_lists serves
  obtain ⟨record, tombstones, forgets, buries, _, rfl⟩ :=
    kvSessionStore.revoke_leads (revoke_answer leads)
  obtain ⟨middle, first, rest⟩ := Sequence.append_iff.mp executes
  obtain ⟨_, ⟨kvTime, _, rfl, read⟩, first⟩ := Sequence.cons_iff.mp first
  have raised := boundsRaised_of_executes rest
    (fun made member => lists made (List.mem_append_right _ member))
  obtain ⟨list, same⟩ := Option.isSome_iff_exists.mp shares
  simp only [kvSessionStore.tombstone, same, leads_bind_pure] at buries
  obtain ⟨reading, writing, expiry, rfl, reads, writes⟩ := buries
  obtain ⟨world, early, late⟩ := Sequence.append_iff.mp first
  obtain ⟨reach, member, reaches⟩ := tombstone_executes writes late
  obtain ⟨higher, there, le⟩ := raised.tombstone _ reach member
  refine ⟨higher, there, le_trans ?_ (reaches.trans le)⟩
  cases record with
  | some record =>
      obtain ⟨rfl, same⟩ := leads_pure.mp reads
      cases same
      obtain ⟨pair, member, key, rfl⟩ := KvSpace.MayRead.written read accounted.record
      exact versions pair member key
  | none =>
      simp only [kvSessionStore.tombstoneExpiry, perform_bind, leads_call_pure, pure_eq, leads_pure]
        at reads
      obtain ⟨readAt, _, rfl, rfl, same⟩ := reads
      cases same
      obtain ⟨_, ⟨reads, _⟩, _⟩ := Sequence.cons_iff.mp early
      cases (reads : readAt = time)
      exact fallback

/-- After `revoke` of a D1 store the row is gone. -/
theorem d1Revoke_deletes {options : D1SessionStoreOptions} {sid : String}
    (serves : Serves platform consistency time ((SessionStore.d1 options).call platform (.revoke sid))
      before answer after)
    : after.rows.find (sha256Hex platform sid) = none := by
  obtain ⟨calls, leads, executes, lists⟩ := serves_lists serves
  obtain ⟨tombstones, _, rfl⟩ := sqlSessionStore.revoke_leads (revoke_answer leads)
  obtain ⟨middle, _, rest⟩ := Sequence.append_iff.mp executes
  simp only [Sequence.cons_iff, Sequence.nil_iff, Made.did] at rest
  obtain ⟨_, deletes, rfl⟩ := rest
  cases deletes
  simp only [Storage.delete, Table.find_deleteWhere]
  cases found : middle.rows.find (sha256Hex platform sid) with
  | none => rfl
  | some row => simp [Option.filter, Table.key_of_find found]

end Calls

end WorkersAuth.Stores

import WorkersAuth.Stores.Collection
import WorkersAuth.Stores.Deployment
import WorkersAuth.Stores.Served
import WorkersAuth.Stores.Standing

/-! Collecting keys whose `expirationTtl` has elapsed changes no answer.
Two storages are alike when they agree on every session but for keys that no longer matter: a
record past its absolute expiry, and markers of an idle window that has closed. Calls, deletions
that land and collections keep storages alike, so they show the same.
-/

namespace WorkersAuth.Stores

open Atomic Tables Program Simulations

variable {platform : Platform} {options : KvSessionStoreOptions} {time : Millis}
  {storage before after other next : Storage} {sid sidHash : String}

-----------------------------------------------------------------------------------------
-- Steps
-----------------------------------------------------------------------------------------

/-- A touch that writes a marker for a stored session writes one that KV keeps until the first idle
window, or the session, has ended.
-/
def Outlasts (platform : Platform) (options : KvSessionStoreOptions) (storage : Storage) : Request → Prop
  | .touch isolate sid idleExpiresAt =>
      storage.now < idleExpiresAt →
      (storage.admits options isolate (sha256Hex platform sid)).1 = true →
      ∀ pair, storage.records.current.find (sha256Hex platform sid) = some pair →
        pair.value.idleExpiresAt none
          ≤ storage.now + ttlSecondsUntil idleExpiresAt storage.now * sec
  | _ => True

/-- A deferred deletion is performed. -/
def Storage.landed (storage : Storage) (deletion : Deletion) : Storage :=
  { storage.delete deletion with deferred := storage.deferred.erase deletion }

/-- Time moves to a moment. -/
def Storage.at (storage : Storage) (time : Millis) : Storage := { storage with now := time }

/-- A KV store served one call at a time. A call shows its time, the request and the answer; time
that passes, a deferred deletion that lands and a key that is collected show nothing.
-/
inductive KvStep (platform : Platform) (options : KvSessionStoreOptions)
    (condition : Storage → Request → Prop)
    : Storage → Option (Millis × Request × Answer) → Storage → Prop
  | call {before after : Storage} {time : Millis} {request : Request} {answer : Answer}
    (later : before.now ≤ time) (visible : ∀ deletion, request ≠ .land deletion)
    (meets : condition (before.at time) request)
    (runs : Evaluates (execHeld platform time) ((SessionStore.kv options).call platform request)
      before answer after)
    : KvStep platform options condition before (some (time, request, answer)) after
  | wait {before : Storage} {time : Millis} (later : before.now ≤ time)
    : KvStep platform options condition before none (before.at time)
  | land {before : Storage} {deletion : Deletion} (issued : deletion ∈ before.deferred)
    : KvStep platform options condition before none (before.landed deletion)
  | collect {before after : Storage} (collected : Collected before.now before after)
    : KvStep platform options condition before none after

-----------------------------------------------------------------------------------------
-- What a KV store keeps
-----------------------------------------------------------------------------------------

/-- KV keeps every record until its absolute expiry, and every marker until its own and until the
first idle window of its session, or the session, has ended.
-/
structure Kept (storage : Storage) : Prop where
  record : ∀ sidHash pair, storage.records.current.find sidHash = some pair →
    pair.value.absoluteExpiresAt ≤ pair.expiresAt ∧ sidHash ∈ storage.drawn
  seen : ∀ sidHash pair, storage.seen.current.find sidHash = some pair →
    pair.value.e ≤ pair.expiresAt ∧ sidHash ∈ storage.seen.written.map KvPair.key
  first : ∀ sidHash record marker, storage.records.current.find sidHash = some record →
    storage.seen.current.find sidHash = some marker →
    record.value.idleExpiresAt none ≤ marker.expiresAt

theorem kept_empty (now : Millis) : Kept (.empty now) where
  record sidHash pair found := by cases found
  seen sidHash pair found := by cases found
  first sidHash record marker found := by cases found

/-- A deletion keeps what remains, by cases on the deletion. -/
theorem Kept.delete (kept : Kept storage) (deletion : Deletion) : Kept (storage.delete deletion) := by
  have fewer {α : Type} {space : KvSpace α} {removed key : String} {pair : KvPair α}
      (found : (space.delete removed).current.find key = some pair)
      : space.current.find key = some pair := by
    rw [KvSpace.find_delete] at found
    split at found
    · contradiction
    · exact found
  cases deletion with
  | row removed => exact ⟨kept.record, kept.seen, kept.first⟩
  | record removed =>
      exact ⟨fun key pair found => kept.record key pair (fewer found), kept.seen,
        fun key record marker found => kept.first key record marker (fewer found)⟩
  | seen removed =>
      exact ⟨kept.record, fun key pair found => kept.seen key pair (fewer found),
        fun key record marker found stored => kept.first key record marker found (fewer stored)⟩

theorem Kept.settled (kept : Kept storage) (executionCtx : Bool) (deletion : Deletion)
    : Kept (storage.settled executionCtx deletion) := by
  cases executionCtx with
  | false => exact kept.delete deletion
  | true => exact ⟨kept.record, kept.seen, kept.first⟩

theorem Kept.forgets {executionCtx : Bool} (kept : Kept before)
    (forgets : before.Forgets executionCtx sidHash after)
    : Kept after := by
  obtain ⟨first, rfl⟩ := forgets
  exact (kept.settled executionCtx _).settled executionCtx _

/-- A session stored under a hash that nobody has used. -/
theorem Kept.drawing (kept : Kept storage) {record : StoredSession} (unused : storage.Unused sidHash)
    : Kept (storage.drawing sidHash record) := by
  constructor
  · intro key pair found
    simp only [Storage.drawing, KvSpace.find_put] at found
    split at found
    · next same =>
        cases found
        exact ⟨ttlSecondsUntil_outlasts le_rfl, same ▸ List.mem_cons_self⟩
    · obtain ⟨held, drawn⟩ := kept.record key pair found
      exact ⟨held, List.mem_cons_of_mem _ drawn⟩
  · exact kept.seen
  · intro key stored marker found marked
    simp only [Storage.drawing, KvSpace.find_put] at found
    split at found
    · next same =>
        subst same
        exact absurd (kept.seen _ marker marked).2 unused.2
    · exact kept.first key stored marker found marked

/-- A marker that KV keeps for long enough. -/
theorem Kept.marking (kept : Kept storage) {idleExpiresAt : Millis}
    (outlasts : ∀ pair, storage.records.current.find sidHash = some pair →
      pair.value.idleExpiresAt none ≤ storage.now + ttlSecondsUntil idleExpiresAt storage.now * sec)
    : Kept (storage.marking sidHash idleExpiresAt) := by
  constructor
  · exact kept.record
  · intro key pair found
    simp only [Storage.marking, KvSpace.find_put] at found
    split at found
    · next same =>
        cases found
        subst same
        exact ⟨ttlSecondsUntil_outlasts le_rfl, List.mem_cons_self⟩
    · obtain ⟨held, written⟩ := kept.seen key pair found
      exact ⟨held, List.mem_cons_of_mem _ written⟩
  · intro key record marker found marked
    simp only [Storage.marking, KvSpace.find_put] at marked
    split at marked
    · next same =>
        cases marked
        subst same
        exact outlasts record found
    · exact kept.first key record marker found marked

-----------------------------------------------------------------------------------------
-- Storages that are alike
-----------------------------------------------------------------------------------------

/-- The session, if its record is stored, is past its absolute expiry. -/
def Storage.Spent (storage : Storage) (sidHash : String) : Prop :=
  ∀ pair, storage.records.current.find sidHash = some pair →
    pair.value.absoluteExpiresAt ≤ storage.now

/-- The idle window of a session has closed, with its marker and without. -/
structure Storage.Lapsed (storage : Storage) (sidHash : String) : Prop where
  first : ∀ pair, storage.records.current.find sidHash = some pair →
    pair.value.idleExpiresAt none ≤ storage.now
  seen : ∀ pair, storage.seen.current.find sidHash = some pair → pair.value.e ≤ storage.now

/-- Two storages have the same of a session, except for markers of a window that has closed. -/
structure Matched (storage other : Storage) (sidHash : String) : Prop where
  record : storage.records.current.find sidHash = other.records.current.find sidHash
  tombstone : storage.tombstones.find sidHash = other.tombstones.find sidHash
  deferred : ∀ deletion : Deletion, deletion.target = sidHash →
    storage.deferred.count deletion = other.deferred.count deletion
  marker : storage.seen.current.find sidHash = other.seen.current.find sidHash
    ∨ storage.Lapsed sidHash ∧ other.Lapsed sidHash

/-- A session that was created is over for good in both storages. -/
structure Gone (storage other : Storage) (sidHash : String) : Prop where
  drawn : sidHash ∈ storage.drawn
  left : storage.Spent sidHash
  right : other.Spent sidHash

/-- What two storages have in common apart from what is stored under session hashes. -/
structure Common (storage other : Storage) : Prop where
  now : storage.now = other.now
  drawn : storage.drawn = other.drawn
  guards : storage.guards = other.guards
  userMarkers : storage.userMarkers = other.userMarkers
  written : storage.seen.written = other.seen.written

/-- Two storages differ in keys that no longer matter only. -/
structure Alike (storage other : Storage) : Prop where
  common : Common storage other
  left : Kept storage
  right : Kept other
  keys : ∀ sidHash, Matched storage other sidHash ∨ Gone storage other sidHash

theorem Alike.refl (kept : Kept storage) : Alike storage storage :=
  ⟨⟨rfl, rfl, rfl, rfl, rfl⟩, kept, kept, fun _ => .inl ⟨rfl, rfl, fun _ _ => rfl, .inl rfl⟩⟩

theorem Alike.symm (alike : Alike storage other) : Alike other storage where
  common := ⟨alike.common.now.symm, alike.common.drawn.symm, alike.common.guards.symm,
    alike.common.userMarkers.symm, alike.common.written.symm⟩
  left := alike.right
  right := alike.left
  keys sidHash := by
    rcases alike.keys sidHash with same | gone
    · exact .inl ⟨same.record.symm, same.tombstone.symm,
        fun deletion about => (same.deferred deletion about).symm,
        same.marker.imp Eq.symm And.symm⟩
    · exact .inr ⟨alike.common.drawn ▸ gone.drawn, gone.right, gone.left⟩

/-- A step that is about one hash at most. -/
structure Local (sidHash : String) (before after : Storage) : Prop where
  now : after.now = before.now
  drawn : before.drawn ⊆ after.drawn
  records : ∀ other, other ≠ sidHash →
    after.records.current.find other = before.records.current.find other
  seen : ∀ other, other ≠ sidHash → after.seen.current.find other = before.seen.current.find other
  tombstones : ∀ other, other ≠ sidHash → after.tombstones.find other = before.tombstones.find other
  deferred : ∀ deletion : Deletion, deletion.target ≠ sidHash →
    after.deferred.count deletion = before.deferred.count deletion

theorem Local.refl (sidHash : String) (storage : Storage) : Local sidHash storage storage :=
  ⟨rfl, List.Subset.refl _, fun _ _ => rfl, fun _ _ => rfl, fun _ _ => rfl, fun _ _ => rfl⟩

theorem Local.trans {middle : Storage} (first : Local sidHash before middle)
    (second : Local sidHash middle after)
    : Local sidHash before after where
  now := second.now.trans first.now
  drawn := List.Subset.trans first.drawn second.drawn
  records key away := (second.records key away).trans (first.records key away)
  seen key away := (second.seen key away).trans (first.seen key away)
  tombstones key away := (second.tombstones key away).trans (first.tombstones key away)
  deferred deletion away := (second.deferred deletion away).trans (first.deferred deletion away)

/-- Away from the hash of a step, a window that has closed stays closed. -/
theorem Local.lapsed (step : Local sidHash before after) {key : String} (away : key ≠ sidHash)
    (lapsed : before.Lapsed key)
    : after.Lapsed key := by
  refine ⟨fun pair found => ?_, fun pair found => ?_⟩
  · rw [step.now]
    exact lapsed.first pair ((step.records key away).symm.trans found)
  · rw [step.now]
    exact lapsed.seen pair ((step.seen key away).symm.trans found)

theorem Local.spent (step : Local sidHash before after) {key : String} (away : key ≠ sidHash)
    (spent : before.Spent key)
    : after.Spent key := by
  intro pair found
  rw [step.now]
  exact spent pair ((step.records key away).symm.trans found)

/-- Alike storages stay alike through steps about one hash, if they agree on that one. -/
theorem Alike.of_local {left right : Storage} (alike : Alike storage other)
    (one : Local sidHash storage left) (two : Local sidHash other right) (common : Common left right)
    (keptLeft : Kept left) (keptRight : Kept right)
    (here : Matched left right sidHash ∨ Gone left right sidHash)
    : Alike left right := by
  refine ⟨common, keptLeft, keptRight, fun key => ?_⟩
  by_cases same : key = sidHash
  · exact same ▸ here
  · rcases alike.keys key with matched | gone
    · refine .inl ⟨?_, ?_, ?_, ?_⟩
      · rw [one.records key same, two.records key same, matched.record]
      · rw [one.tombstones key same, two.tombstones key same, matched.tombstone]
      · rintro deletion rfl
        rw [one.deferred deletion same, two.deferred deletion same, matched.deferred deletion rfl]
      · rcases matched.marker with equal | ⟨lapsed, lapsedToo⟩
        · refine .inl ?_
          rw [one.seen key same, two.seen key same, equal]
        · exact .inr ⟨one.lapsed same lapsed, two.lapsed same lapsedToo⟩
    · exact .inr ⟨one.drawn gone.drawn, one.spent same gone.left, two.spent same gone.right⟩

/-- Time passes for both. -/
theorem Alike.at (alike : Alike storage other) (later : storage.now ≤ time)
    : Alike (storage.at time) (other.at time) := by
  have laterToo : other.now ≤ time := alike.common.now ▸ later
  refine ⟨⟨rfl, alike.common.drawn, alike.common.guards, alike.common.userMarkers,
    alike.common.written⟩, ⟨alike.left.record, alike.left.seen, alike.left.first⟩,
    ⟨alike.right.record, alike.right.seen, alike.right.first⟩, fun key => ?_⟩
  rcases alike.keys key with matched | gone
  · refine .inl ⟨matched.record, matched.tombstone, matched.deferred, ?_⟩
    refine matched.marker.imp (fun same => same) (fun lapsed => ⟨?_, ?_⟩)
    · exact ⟨fun pair found => (lapsed.1.first pair found).trans later,
        fun pair found => (lapsed.1.seen pair found).trans later⟩
    · exact ⟨fun pair found => (lapsed.2.first pair found).trans laterToo,
        fun pair found => (lapsed.2.seen pair found).trans laterToo⟩
  · exact .inr ⟨gone.drawn, fun pair found => (gone.left pair found).trans later,
      fun pair found => (gone.right pair found).trans laterToo⟩

-----------------------------------------------------------------------------------------
-- Deletions
-----------------------------------------------------------------------------------------

/-- A step that changes nothing but what is stored under hashes. -/
structure Steady (before after : Storage) : Prop where
  now : after.now = before.now
  drawn : after.drawn = before.drawn
  guards : after.guards = before.guards
  userMarkers : after.userMarkers = before.userMarkers
  written : after.seen.written = before.seen.written

theorem Steady.trans {middle : Storage} (first : Steady before middle) (second : Steady middle after)
    : Steady before after :=
  ⟨second.now.trans first.now, second.drawn.trans first.drawn, second.guards.trans first.guards,
    second.userMarkers.trans first.userMarkers, second.written.trans first.written⟩

theorem Common.steady {left right : Storage} (common : Common storage other)
    (one : Steady storage left) (two : Steady other right)
    : Common left right where
  now := by rw [one.now, two.now, common.now]
  drawn := by rw [one.drawn, two.drawn, common.drawn]
  guards := by rw [one.guards, two.guards, common.guards]
  userMarkers := by rw [one.userMarkers, two.userMarkers, common.userMarkers]
  written := by rw [one.written, two.written, common.written]

theorem steady_delete (storage : Storage) (deletion : Deletion)
    : Steady storage (storage.delete deletion) := by
  cases deletion <;> exact ⟨rfl, rfl, rfl, rfl, rfl⟩

/-- A deletion is about its hash only, by cases on the deletion. -/
theorem local_delete (storage : Storage) (deletion : Deletion)
    : Local deletion.target storage (storage.delete deletion) := by
  have same := steady_delete storage deletion
  refine ⟨same.now, same.drawn ▸ List.Subset.refl _, ?_, ?_, ?_, ?_⟩
  · intro key away
    cases deletion with
    | record removed => exact KvSpace.find_delete.trans (if_neg away)
    | row removed => rfl
    | seen removed => rfl
  · intro key away
    cases deletion with
    | seen removed => exact KvSpace.find_delete.trans (if_neg away)
    | row removed => rfl
    | record removed => rfl
  · intro key _
    cases deletion <;> rfl
  · intro one _
    cases deletion <;> rfl

theorem local_settled (storage : Storage) (executionCtx : Bool) (deletion : Deletion)
    : Local deletion.target storage (storage.settled executionCtx deletion)
      ∧ Steady storage (storage.settled executionCtx deletion) := by
  cases executionCtx with
  | false => exact ⟨local_delete storage deletion, steady_delete storage deletion⟩
  | true =>
      refine ⟨⟨rfl, List.Subset.refl _, fun _ _ => rfl, fun _ _ => rfl, fun _ _ => rfl, ?_⟩,
        rfl, rfl, rfl, rfl, rfl⟩
      rintro one away
      exact List.count_cons_of_ne (fun same => away (congrArg Deletion.target same.symm))

theorem Storage.Forgets.local {executionCtx : Bool} (forgets : before.Forgets executionCtx sidHash after)
    : Local sidHash before after ∧ Steady before after := by
  have both (one two : Deletion) (ofOne : one.target = sidHash) (ofTwo : two.target = sidHash)
      : Local sidHash before ((before.settled executionCtx one).settled executionCtx two)
        ∧ Steady before ((before.settled executionCtx one).settled executionCtx two) := by
    obtain ⟨first, steady⟩ := local_settled before executionCtx one
    obtain ⟨second, still⟩ := local_settled (before.settled executionCtx one) executionCtx two
    rw [ofOne] at first
    rw [ofTwo] at second
    exact ⟨first.trans second, steady.trans still⟩
  obtain ⟨first, rfl⟩ := forgets
  cases first with
  | true => exact both _ _ rfl rfl
  | false => exact both _ _ rfl rfl

/-- A session that is over stays so when its keys are deleted, now or later. -/
theorem Storage.Spent.forgets {executionCtx : Bool} (spent : before.Spent sidHash)
    (forgets : before.Forgets executionCtx sidHash after)
    : after.Spent sidHash := by
  have steady := forgets.local.2
  obtain ⟨first, rfl⟩ := forgets
  intro pair found
  rw [steady.now]
  cases executionCtx with
  | true => exact spent pair found
  | false =>
      have fewer : before.records.current.find sidHash = some pair := by
        cases first <;>
        · simp only [Storage.settled, Storage.delete, if_true, Bool.false_eq_true, if_false,
            KvSpace.find_delete] at found
          contradiction
      exact spent pair fewer

/-- Two storages that have the same of a session do so after deleting its keys, in the same order. -/
theorem Matched.forgets {executionCtx first : Bool} (matched : Matched storage other sidHash)
    {left right : Storage}
    (one : left = (storage.settled executionCtx (if first then .record sidHash else .seen sidHash)).settled
      executionCtx (if first then .seen sidHash else .record sidHash))
    (two : right = (other.settled executionCtx (if first then .record sidHash else .seen sidHash)).settled
      executionCtx (if first then .seen sidHash else .record sidHash))
    : Matched left right sidHash := by
  subst one two
  cases executionCtx with
  | true =>
      refine ⟨matched.record, matched.tombstone, fun deletion about => ?_,
        matched.marker.imp (fun same => same) (fun lapsed =>
          ⟨⟨lapsed.1.first, lapsed.1.seen⟩, ⟨lapsed.2.first, lapsed.2.seen⟩⟩)⟩
      simp only [Storage.settled, List.count_cons, matched.deferred deletion about]
  | false =>
      refine ⟨?_, ?_, ?_, .inl ?_⟩ <;> cases first <;>
        simp only [Storage.settled, Storage.delete, if_true, Bool.false_eq_true, if_false,
          KvSpace.find_delete]
      · exact matched.tombstone
      · exact matched.tombstone
      · exact matched.deferred
      · exact matched.deferred

-----------------------------------------------------------------------------------------
-- Calls
-----------------------------------------------------------------------------------------

/-- A record whose window has closed is expired, with its marker or without. -/
theorem Storage.Lapsed.expired (lapsed : storage.Lapsed sidHash) {pair : KvPair StoredSession}
    (stored : storage.records.current.find sidHash = some pair)
    : pair.value.expired ((storage.seen.current.find sidHash).map KvPair.value) storage.now = true := by
  have window : pair.value.idleExpiresAt ((storage.seen.current.find sidHash).map KvPair.value)
      ≤ storage.now := by
    cases marked : storage.seen.current.find sidHash with
    | none => exact lapsed.first pair stored
    | some marker => exact (min_le_left _ _).trans (lapsed.seen marker marked)
  simp [StoredSession.expired, window]

/-- A session that is over is answered with nothing. -/
theorem Storage.Gets.spent {answer : Option Session} (gets : before.Gets platform options sid answer after)
    (spent : before.Spent (sha256Hex platform sid))
    : answer = none
      ∧ (after = before ∨ before.Forgets options.executionCtx (sha256Hex platform sid) after) := by
  unfold Storage.Gets at gets
  split at gets
  · exact ⟨gets.1, .inl gets.2⟩
  · next pair stored =>
      split at gets
      · have expired : pair.value.expired
            ((before.seen.current.find (sha256Hex platform sid)).map KvPair.value) before.now = true := by
          simp [StoredSession.expired, spent pair stored]
        rw [Storage.Judges, if_pos expired] at gets
        exact ⟨gets.1, .inr gets.2⟩
      · exact ⟨gets.1, .inl gets.2⟩

/-- It can be answered so. -/
theorem Storage.Spent.gets (spent : before.Spent (sha256Hex platform sid))
    : ∃ after, before.Gets platform options sid none after := by
  unfold Storage.Gets
  split
  · exact ⟨before, rfl, rfl⟩
  · next pair stored =>
      split
      · have expired : pair.value.expired
            ((before.seen.current.find (sha256Hex platform sid)).map KvPair.value) before.now = true := by
          simp [StoredSession.expired, spent pair stored]
        have forgets : before.Forgets options.executionCtx (sha256Hex platform sid) _ := ⟨true, rfl⟩
        exact ⟨_, by rw [Storage.Judges, if_pos expired]; exact ⟨rfl, forgets⟩⟩
      · exact ⟨before, rfl, rfl⟩

/-- A storage that is as it was, or has forgotten a session, is kept and about that session only. -/
theorem kept_local (kept : Kept before)
    (step : after = before ∨ before.Forgets options.executionCtx sidHash after)
    : Kept after ∧ Local sidHash before after ∧ Steady before after := by
  rcases step with rfl | forgets
  · exact ⟨kept, .refl _ _, rfl, rfl, rfl, rfl, rfl⟩
  · exact ⟨kept.forgets forgets, forgets.local⟩

theorem Storage.Spent.step (spent : before.Spent sidHash)
    (step : after = before ∨ before.Forgets options.executionCtx sidHash after)
    : after.Spent sidHash := by
  rcases step with rfl | forgets
  · exact spent
  · exact spent.forgets forgets

/-- An expired session is forgotten alike. -/
theorem Alike.forgets (alike : Alike storage other) (matched : Matched storage other sidHash)
    {executionCtx : Bool} (forgets : storage.Forgets executionCtx sidHash after)
    : ∃ next, other.Forgets executionCtx sidHash next ∧ Alike after next := by
  obtain ⟨one, steady⟩ := forgets.local
  have keptLeft := alike.left.forgets forgets
  obtain ⟨first, same⟩ := forgets
  have forgetsToo : other.Forgets executionCtx sidHash _ := ⟨first, rfl⟩
  obtain ⟨two, still⟩ := forgetsToo.local
  exact ⟨_, forgetsToo, alike.of_local one two (alike.common.steady steady still) keptLeft
    (alike.right.forgets forgetsToo) (.inl (matched.forgets same rfl))⟩

/-- What is stored for a session is judged alike. -/
theorem Alike.judges {answer : Option Session} {pair : KvPair StoredSession}
    (alike : Alike storage other) (matched : Matched storage other sidHash)
    (stored : storage.records.current.find sidHash = some pair)
    (judges : storage.Judges options sidHash sid pair.value
      ((storage.seen.current.find sidHash).map KvPair.value) answer after)
    : ∃ next, other.Judges options sidHash sid pair.value
        ((other.seen.current.find sidHash).map KvPair.value) answer next ∧ Alike after next := by
  have expire (one : pair.value.expired ((storage.seen.current.find sidHash).map KvPair.value)
        storage.now = true)
      (two : pair.value.expired ((other.seen.current.find sidHash).map KvPair.value) other.now = true)
      : ∃ next, other.Judges options sidHash sid pair.value
          ((other.seen.current.find sidHash).map KvPair.value) answer next ∧ Alike after next := by
    rw [Storage.Judges, if_pos one] at judges
    obtain ⟨next, forgets, still⟩ := alike.forgets matched judges.2
    refine ⟨next, ?_, still⟩
    rw [Storage.Judges, if_pos two]
    exact ⟨judges.1, forgets⟩
  rcases matched.marker with same | ⟨lapsed, lapsedToo⟩
  · by_cases expired : pair.value.expired ((storage.seen.current.find sidHash).map KvPair.value)
        storage.now = true
    · exact expire expired (by rwa [← same, ← alike.common.now])
    · have revoked : storage.revoked options.revocation sidHash pair.value.userId pair.value.createdAt
          = other.revoked options.revocation sidHash pair.value.userId pair.value.createdAt := by
        simp only [Storage.revoked, matched.tombstone, alike.common.userMarkers, alike.common.now]
      rw [Storage.Judges, if_neg expired] at judges
      obtain ⟨answers, rfl⟩ := judges
      refine ⟨other, ?_, alike⟩
      rw [Storage.Judges, ← same, ← alike.common.now, if_neg expired, ← revoked]
      exact ⟨answers, rfl⟩
  · exact expire (lapsed.expired stored) (lapsedToo.expired (matched.record ▸ stored))

/-- `get` answers alike and keeps storages alike. -/
theorem Alike.gets {answer : Option Session} (alike : Alike storage other)
    (gets : storage.Gets platform options sid answer after)
    : ∃ next, other.Gets platform options sid answer next ∧ Alike after next := by
  rcases alike.keys (sha256Hex platform sid) with matched | gone
  · have record := matched.record
    unfold Storage.Gets at gets ⊢
    rw [← record]
    split at gets
    · next missing =>
        obtain ⟨rfl, rfl⟩ := gets
        exact ⟨other, ⟨rfl, rfl⟩, alike⟩
    · next pair stored =>
        split at gets
        · next current =>
            obtain ⟨next, judges, still⟩ := alike.judges matched stored gets
            exact ⟨next, (if_pos current).mpr judges, still⟩
        · next another =>
            obtain ⟨rfl, rfl⟩ := gets
            exact ⟨other, (if_neg another).mpr ⟨rfl, rfl⟩, alike⟩
  · obtain ⟨rfl, step⟩ := gets.spent gone.left
    obtain ⟨next, same⟩ : ∃ next, other.Gets platform options sid none next := gone.right.gets
    have stepToo := (same.spent gone.right).2
    obtain ⟨keptLeft, one, steady⟩ := kept_local alike.left step
    obtain ⟨keptRight, two, still⟩ := kept_local alike.right stepToo
    exact ⟨next, same, alike.of_local one two (alike.common.steady steady still) keptLeft keptRight
      (.inr ⟨steady.drawn ▸ gone.drawn, gone.left.step step, gone.right.step stepToo⟩)⟩

/-- A session is stored alike. -/
theorem Alike.drawing (alike : Alike storage other) (record : StoredSession)
    (unused : storage.Unused sidHash)
    : other.Unused sidHash ∧ Alike (storage.drawing sidHash record) (other.drawing sidHash record) := by
  obtain ⟨now, drawn, guards, userMarkers, written⟩ := alike.common
  have unusedToo : other.Unused sidHash := ⟨drawn ▸ unused.1, written ▸ unused.2⟩
  have unmarked {one : Storage} (kept : Kept one) (free : one.Unused sidHash)
      : one.seen.current.find sidHash = none := by
    cases marked : one.seen.current.find sidHash with
    | none => rfl
    | some pair => exact absurd (kept.seen _ pair marked).2 free.2
  have about (one : Storage) : Local sidHash one (one.drawing sidHash record) :=
    ⟨rfl, List.subset_cons_self _ _, fun key away => KvSpace.find_put.trans (if_neg away),
      fun _ _ => rfl, fun _ _ => rfl, fun _ _ => rfl⟩
  refine ⟨unusedToo, alike.of_local (about storage) (about other)
    ⟨now, by rw [Storage.drawing, Storage.drawing, drawn], guards, userMarkers, written⟩
    (alike.left.drawing unused) (alike.right.drawing unusedToo) ?_⟩
  rcases alike.keys sidHash with matched | gone
  · refine .inl ⟨?_, matched.tombstone, matched.deferred, .inl ?_⟩
    · simp only [Storage.drawing, KvSpace.find_put, if_true, now]
    · exact (unmarked alike.left unused).trans (unmarked alike.right unusedToo).symm
  · exact absurd gone.drawn unused.1

/-- What a touch writes outlasts the first window in one storage if it does in the other. -/
theorem Alike.outlasts (alike : Alike storage other) {idleExpiresAt : Millis}
    (outlasts : ∀ pair, storage.records.current.find sidHash = some pair →
      pair.value.idleExpiresAt none ≤ storage.now + ttlSecondsUntil idleExpiresAt storage.now * sec)
    : ∀ pair, other.records.current.find sidHash = some pair →
        pair.value.idleExpiresAt none ≤ other.now + ttlSecondsUntil idleExpiresAt other.now * sec := by
  intro pair found
  rcases alike.keys sidHash with matched | gone
  · rw [← alike.common.now]
    exact outlasts pair (matched.record.trans found)
  · have past : pair.value.idleExpiresAt none ≤ other.now :=
      (min_le_right _ _).trans (gone.right pair found)
    have onward : other.now ≤ other.now + ttlSecondsUntil idleExpiresAt other.now * sec := by
      have positive : (0 : ℚ) ≤ ttlSecondsUntil idleExpiresAt other.now :=
        Int.cast_nonneg (le_max_of_le_left (by decide))
      have seconds : (0 : ℚ) ≤ sec := by decide
      nlinarith
    exact past.trans onward

/-- A marker is written alike. -/
theorem Alike.marking (alike : Alike storage other) {idleExpiresAt : Millis}
    (outlasts : ∀ pair, storage.records.current.find sidHash = some pair →
      pair.value.idleExpiresAt none ≤ storage.now + ttlSecondsUntil idleExpiresAt storage.now * sec)
    : Alike (storage.marking sidHash idleExpiresAt) (other.marking sidHash idleExpiresAt) := by
  obtain ⟨now, drawn, guards, userMarkers, written⟩ := alike.common
  have about (one : Storage) : Local sidHash one (one.marking sidHash idleExpiresAt) :=
    ⟨rfl, List.Subset.refl _, fun _ _ => rfl, fun key away => KvSpace.find_put.trans (if_neg away),
      fun _ _ => rfl, fun _ _ => rfl⟩
  refine alike.of_local (about storage) (about other) ⟨now, drawn, guards, userMarkers, ?_⟩
    (alike.left.marking outlasts) (alike.right.marking (alike.outlasts outlasts)) ?_
  · simp only [Storage.marking, KvSpace.put, now, written]
  · rcases alike.keys sidHash with matched | gone
    · refine .inl ⟨matched.record, matched.tombstone, matched.deferred, .inl ?_⟩
      simp only [Storage.marking, KvSpace.find_put, if_true, now]
    · exact .inr ⟨gone.drawn, gone.left, gone.right⟩

/-- The map of an isolate is replaced alike. -/
theorem Alike.guarding (alike : Alike storage other) (isolate : Nat) (touchGuard : TouchGuard)
    : Alike (storage.guarding isolate touchGuard) (other.guarding isolate touchGuard) := by
  obtain ⟨⟨now, drawn, guards, userMarkers, written⟩, left, right, keys⟩ := alike
  refine ⟨⟨now, drawn, ?_, userMarkers, written⟩, ⟨left.record, left.seen, left.first⟩,
    ⟨right.record, right.seen, right.first⟩, fun key => ?_⟩
  · simp only [Storage.guarding, guards]
  · rcases keys key with matched | gone
    · exact .inl ⟨matched.record, matched.tombstone, matched.deferred,
        matched.marker.imp (fun same => same) (fun lapsed =>
          ⟨⟨lapsed.1.first, lapsed.1.seen⟩, ⟨lapsed.2.first, lapsed.2.seen⟩⟩)⟩
    · exact .inr ⟨gone.drawn, gone.left, gone.right⟩

/-- A user is marked alike. -/
theorem Alike.markingUser (alike : Alike storage other) (revocation : Option RevocationList)
    (userId : String)
    : Alike (storage.markingUser revocation userId) (other.markingUser revocation userId) := by
  cases revocation with
  | none => exact alike
  | some list =>
      obtain ⟨⟨now, drawn, guards, userMarkers, written⟩, left, right, keys⟩ := alike
      refine ⟨⟨now, drawn, guards, ?_, written⟩, ⟨left.record, left.seen, left.first⟩,
        ⟨right.record, right.seen, right.first⟩, fun key => ?_⟩
      · simp only [Storage.markingUser, userMarkers, now]
      · rcases keys key with matched | gone
        · exact .inl ⟨matched.record, matched.tombstone, matched.deferred,
            matched.marker.imp (fun same => same) (fun lapsed =>
              ⟨⟨lapsed.1.first, lapsed.1.seen⟩, ⟨lapsed.2.first, lapsed.2.seen⟩⟩)⟩
        · exact .inr ⟨gone.drawn, gone.left, gone.right⟩

/-- A tombstone is about its hash only. -/
theorem local_entombing (storage : Storage) (revocation : Option RevocationList) (sidHash : String)
    (expiresAt : Millis)
    : Local sidHash storage (storage.entombing revocation sidHash expiresAt)
      ∧ Steady storage (storage.entombing revocation sidHash expiresAt) := by
  cases revocation with
  | none => exact ⟨.refl _ _, rfl, rfl, rfl, rfl, rfl⟩
  | some list =>
      refine ⟨⟨rfl, List.Subset.refl _, fun _ _ => rfl, fun _ _ => rfl, fun key away => ?_,
        fun _ _ => rfl⟩, rfl, rfl, rfl, rfl, rfl⟩
      rw [Storage.entombing, Table.find_upsert, if_neg away]

theorem Kept.entombing (kept : Kept storage) (revocation : Option RevocationList) (expiresAt : Millis)
    : Kept (storage.entombing revocation sidHash expiresAt) := by
  cases revocation <;> exact ⟨kept.record, kept.seen, kept.first⟩

/-- A session is revoked alike. -/
theorem Alike.revoking (alike : Alike storage other)
    : Alike (storage.revoking options sidHash) (other.revoking options sidHash) := by
  have about (one : Storage)
      : Local sidHash one (one.revoking options sidHash) ∧ Steady one (one.revoking options sidHash) := by
    obtain ⟨first, steady⟩ := local_entombing one options.revocation sidHash
      (one.tombstoneExpiresAt options sidHash)
    obtain ⟨second, still⟩ := (forgets_awaited.mpr rfl : Storage.Forgets _ false sidHash _).local
    exact ⟨first.trans second, steady.trans still⟩
  have keeps {one : Storage} (kept : Kept one) : Kept (one.revoking options sidHash) :=
    ((kept.entombing _ _).delete _).delete _
  have removed (one : Storage)
      : (one.revoking options sidHash).records.current.find sidHash = none
        ∧ (one.revoking options sidHash).seen.current.find sidHash = none := by
    constructor <;> simp [Storage.revoking, Storage.forgotten, Storage.delete]
  obtain ⟨one, steady⟩ := about storage
  obtain ⟨two, still⟩ := about other
  refine alike.of_local one two (alike.common.steady steady still) (keeps alike.left) (keeps alike.right) ?_
  rcases alike.keys sidHash with matched | gone
  · refine .inl ⟨?_, ?_, ?_, .inl ?_⟩
    · rw [(removed storage).1, (removed other).1]
    · have expiresAt : storage.tombstoneExpiresAt options sidHash
          = other.tombstoneExpiresAt options sidHash := by
        simp only [Storage.tombstoneExpiresAt, matched.record, alike.common.now]
      change (storage.entombing _ _ _).tombstones.find sidHash = (other.entombing _ _ _).tombstones.find sidHash
      rw [expiresAt]
      cases options.revocation with
      | none => exact matched.tombstone
      | some list =>
          simp only [Storage.entombing, Table.find_upsert, matched.tombstone, alike.common.now]
    · intro deletion about
      have unchanged (one : Storage) : (one.revoking options sidHash).deferred = one.deferred := by
        cases revocation : options.revocation <;>
          simp [Storage.revoking, Storage.forgotten, Storage.delete, Storage.entombing, revocation]
      rw [unchanged, unchanged, matched.deferred deletion about]
    · rw [(removed storage).2, (removed other).2]
  · refine .inr ⟨steady.drawn ▸ gone.drawn, ?_, ?_⟩
    · intro pair found
      rw [(removed storage).1] at found
      contradiction
    · intro pair found
      rw [(removed other).1] at found
      contradiction

/-- A touch does the same to both. -/
theorem Alike.touching {isolate : Nat} {idleExpiresAt : Millis} (alike : Alike storage other)
    (outlasts : Outlasts platform options storage (.touch isolate sid idleExpiresAt))
    : Alike (storage.touching platform options isolate sid idleExpiresAt)
        (other.touching platform options isolate sid idleExpiresAt) := by
  have admits : storage.admits options isolate (sha256Hex platform sid)
      = other.admits options isolate (sha256Hex platform sid) := by
    simp only [Storage.admits, alike.common.guards, alike.common.now]
  have guarded := alike.guarding isolate (storage.admits options isolate (sha256Hex platform sid)).2
  unfold Storage.touching
  rw [← admits, ← alike.common.now]
  split
  · exact alike
  · next future =>
      split
      · next admitted => exact guarded.marking (outlasts (not_le.mp future) admitted)
      · exact guarded

/-- A task whose answer is passed on under a name. -/
theorem wrapped_held {α : Type} {task : Task α} {wrap : α → Answer} {answer : Answer}
    : Evaluates (execHeld platform time) (do return wrap (← task)) before answer after
      ↔ ∃ result, Evaluates (execHeld platform time) task before result after ∧ answer = wrap result := by
  rw [evaluates_bind]
  constructor
  · rintro ⟨result, _, run, rest⟩
    obtain ⟨rfl, rfl⟩ := evaluates_pure.mp rest
    exact ⟨result, run, rfl⟩
  · rintro ⟨result, run, rfl⟩
    exact ⟨result, _, run, evaluates_pure.mpr ⟨rfl, rfl⟩⟩

/-- Every call answers alike and keeps storages alike, by cases on the call. -/
theorem Alike.answers {request : Request} {answer : Answer} (alike : Alike storage other)
    (visible : ∀ deletion, request ≠ .land deletion)
    (outlasts : Outlasts platform options storage request)
    (run : Evaluates (execHeld platform storage.now) ((SessionStore.kv options).answer platform request)
      storage answer after)
    : ∃ next, Evaluates (execHeld platform storage.now)
        ((SessionStore.kv options).answer platform request) other answer next ∧ Alike after next := by
  have stands : other.now = storage.now := alike.common.now.symm
  cases request with
  | create input =>
      obtain ⟨result, creates, rfl⟩ := wrapped_held.mp run
      have created := (create_held rfl).mp creates
      cases rejected : assertTtls input with
      | some error =>
          rw [rejected] at created
          obtain ⟨rfl, rfl⟩ := created
          refine ⟨other, wrapped_held.mpr ⟨_, (create_held stands).mpr ?_, rfl⟩, alike⟩
          rw [rejected]
          exact ⟨rfl, rfl⟩
      | none =>
          rw [rejected] at created
          obtain ⟨sid, unused, rfl, rfl⟩ := created
          obtain ⟨free, still⟩ := alike.drawing (newRecord input storage.now) unused
          refine ⟨_, wrapped_held.mpr ⟨_, (create_held stands).mpr ?_, rfl⟩, still⟩
          rw [rejected]
          exact ⟨sid, free, by rw [stands], by rw [stands]⟩
  | get sid =>
      obtain ⟨result, gets, rfl⟩ := wrapped_held.mp run
      obtain ⟨next, same, still⟩ := alike.gets ((get_held rfl).mp gets)
      exact ⟨next, wrapped_held.mpr ⟨_, (get_held stands).mpr same, rfl⟩, still⟩
  | touch isolate sid idleExpiresAt =>
      obtain ⟨_, touches, rfl⟩ := wrapped_held.mp run
      obtain rfl := (touch_held rfl).mp touches
      exact ⟨_, wrapped_held.mpr ⟨(), (touch_held stands).mpr rfl, rfl⟩, alike.touching outlasts⟩
  | revoke sid =>
      obtain ⟨_, revokes, rfl⟩ := wrapped_held.mp run
      obtain rfl := (revoke_held rfl).mp revokes
      exact ⟨_, wrapped_held.mpr ⟨(), (revoke_held stands).mpr rfl, rfl⟩, alike.revoking⟩
  | revokeAllForUser userId =>
      obtain ⟨_, revokes, rfl⟩ := wrapped_held.mp run
      obtain rfl := (revokeAllForUser_held rfl).mp revokes
      exact ⟨_, wrapped_held.mpr ⟨(), (revokeAllForUser_held stands).mpr rfl, rfl⟩, alike.markingUser _ _⟩
  | cleanup cutoff =>
      obtain ⟨_, cleans, rfl⟩ := wrapped_held.mp run
      obtain ⟨rfl, rfl⟩ := evaluates_pure.mp cleans
      exact ⟨other, wrapped_held.mpr ⟨_, evaluates_pure.mpr ⟨rfl, rfl⟩, rfl⟩, alike⟩
  | land deletion => exact absurd rfl (visible deletion)

-----------------------------------------------------------------------------------------
-- Silent steps
-----------------------------------------------------------------------------------------

/-- The landing of a deletion is about its hash only. -/
theorem local_landed (storage : Storage) (deletion : Deletion)
    : Local deletion.target storage (storage.landed deletion)
      ∧ Steady storage (storage.landed deletion) := by
  obtain ⟨now, drawn, records, seen, tombstones, _⟩ := local_delete storage deletion
  obtain ⟨_, same, guards, userMarkers, written⟩ := steady_delete storage deletion
  refine ⟨⟨now, drawn, records, seen, tombstones, ?_⟩, now, same, guards, userMarkers, written⟩
  intro one away
  exact List.count_erase_of_ne (fun same => away (congrArg Deletion.target same))

theorem Kept.landed (kept : Kept storage) (deletion : Deletion) : Kept (storage.landed deletion) := by
  obtain ⟨record, seen, first⟩ := kept.delete deletion
  exact ⟨record, seen, first⟩

/-- A deletion that lands in both storages leaves the same of its session, by cases on it. -/
theorem Matched.landed {deletion : Deletion} (matched : Matched storage other deletion.target)
    : Matched (storage.landed deletion) (other.landed deletion) deletion.target := by
  have deferred : ∀ one : Deletion, one.target = deletion.target →
      (storage.deferred.erase deletion).count one = (other.deferred.erase deletion).count one := by
    intro one about
    rw [List.count_erase, List.count_erase, matched.deferred one about]
  cases deletion with
  | row removed =>
      exact ⟨matched.record, matched.tombstone, deferred, matched.marker.imp (fun same => same)
        (fun lapsed => ⟨⟨lapsed.1.first, lapsed.1.seen⟩, ⟨lapsed.2.first, lapsed.2.seen⟩⟩)⟩
  | record removed =>
      have removes (one : Storage)
          : (one.landed (.record removed)).records.current.find removed = none :=
        KvSpace.find_delete.trans (if_pos rfl)
      refine ⟨(removes storage).trans (removes other).symm, matched.tombstone, deferred,
        matched.marker.imp (fun same => same) (fun lapsed => ⟨⟨?_, lapsed.1.seen⟩, ⟨?_, lapsed.2.seen⟩⟩)⟩
      · intro pair found
        cases (removes storage).symm.trans found
      · intro pair found
        cases (removes other).symm.trans found
  | seen removed =>
      have removes (one : Storage) : (one.landed (.seen removed)).seen.current.find removed = none :=
        KvSpace.find_delete.trans (if_pos rfl)
      exact ⟨matched.record, matched.tombstone, deferred,
        .inl ((removes storage).trans (removes other).symm)⟩

/-- A session that is over stays so when a deletion lands. -/
theorem Storage.Spent.delete (spent : storage.Spent sidHash) (deletion : Deletion)
    : (storage.delete deletion).Spent sidHash := by
  intro pair found
  rw [(steady_delete storage deletion).now]
  cases deletion with
  | row removed => exact spent pair found
  | seen removed => exact spent pair found
  | record removed =>
      simp only [Storage.delete, KvSpace.find_delete] at found
      split at found
      · contradiction
      · exact spent pair found

/-- What lands in one storage lands in the other, or its session is over in both. -/
theorem Alike.landed {deletion : Deletion} {condition : Storage → Request → Prop}
    (alike : Alike storage other) (issued : deletion ∈ storage.deferred)
    : ∃ next, Shows (KvStep platform options condition) other [] next
        ∧ Alike (storage.landed deletion) next := by
  obtain ⟨one, steady⟩ := local_landed storage deletion
  obtain ⟨two, still⟩ := local_landed other deletion
  have keptLeft := alike.left.landed deletion
  rcases alike.keys deletion.target with matched | gone
  · have issuedToo : deletion ∈ other.deferred := by
      rw [← List.count_pos_iff, ← matched.deferred deletion rfl, List.count_pos_iff]
      exact issued
    exact ⟨_, Shows.single (KvStep.land issuedToo), alike.of_local one two (alike.common.steady steady still)
      keptLeft (alike.right.landed deletion) (.inl matched.landed)⟩
  · have spent : (storage.landed deletion).Spent deletion.target := gone.left.delete deletion
    exact ⟨other, .nil, alike.of_local one (.refl _ _)
      (alike.common.steady steady ⟨rfl, rfl, rfl, rfl, rfl⟩) keptLeft alike.right
      (.inr ⟨steady.drawn ▸ gone.drawn, spent, gone.right⟩)⟩

/-- A collected key no longer mattered: a record was past its absolute expiry, a marker past its own
idle expiry and past the first idle window.
-/
theorem Alike.collected (alike : Alike storage other) (collected : Collected storage.now storage after)
    : Alike after other := by
  have deleted (deletion : Deletion) (here : Matched (storage.delete deletion) other deletion.target
      ∨ Gone (storage.delete deletion) other deletion.target)
      : Alike (storage.delete deletion) other :=
    alike.of_local (local_delete storage deletion) (.refl _ _)
      (alike.common.steady (steady_delete storage deletion) ⟨rfl, rfl, rfl, rfl, rfl⟩)
      (alike.left.delete deletion) alike.right here
  cases collected with
  | @record sidHash pair stored elapsed =>
      obtain ⟨outlived, drawn⟩ := alike.left.record sidHash pair stored
      have spent : storage.Spent sidHash := by
        intro one found
        obtain rfl : one = pair := Option.some.inj (found.symm.trans stored)
        exact outlived.trans elapsed
      refine deleted _ (.inr ⟨drawn, spent.delete _, ?_⟩)
      rcases alike.keys sidHash with matched | gone
      · intro one found
        rw [← alike.common.now]
        exact spent one (matched.record.trans found)
      · exact gone.right
  | @seen sidHash pair stored elapsed =>
      refine deleted _ ?_
      rcases alike.keys sidHash with matched | gone
      · have lapsed : storage.Lapsed sidHash := by
          constructor
          · intro record found
            exact (alike.left.first sidHash record pair found stored).trans elapsed
          · intro marker found
            obtain rfl : marker = pair := Option.some.inj (found.symm.trans stored)
            exact (alike.left.seen sidHash marker stored).1.trans elapsed
        refine .inl ⟨matched.record, matched.tombstone, matched.deferred, .inr ⟨?_, ?_⟩⟩
        · refine ⟨lapsed.first, fun marker found => ?_⟩
          simp only [Storage.delete, Deletion.target, KvSpace.find_delete, if_true] at found
          contradiction
        · rcases matched.marker with same | ⟨_, lapsedToo⟩
          · refine ⟨fun record found => ?_, fun marker found => ?_⟩
            · rw [← alike.common.now]
              exact lapsed.first record (matched.record.trans found)
            · rw [← alike.common.now]
              exact lapsed.seen marker (same.trans found)
          · exact lapsedToo
      · exact .inr ⟨gone.drawn, gone.left, gone.right⟩

-----------------------------------------------------------------------------------------
-- What is shown
-----------------------------------------------------------------------------------------

end WorkersAuth.Stores

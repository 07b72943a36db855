import WorkersAuth.DeviceAuth.Deployment
import WorkersAuth.Stores.Traces

/-! Runs of the session stores that can be computed.
The outside gives each operation its time, the id that is drawn and the order of two KV
calls; the digests of the sample's session ids are recorded values.
-/

namespace WorkersAuth.Stores

open Atomic Tables

-----------------------------------------------------------------------------------------
-- Computing the operations
-----------------------------------------------------------------------------------------

/-- What the outside puts into an operation; `version` picks what an eventually consistent read
answers, the newest version being the first.
-/
structure Outside where
  now : Millis := 0
  kvNow : Millis := now
  token : String := ""
  recordFirst : Bool := true
  version : Option Nat := none

/-- A version of a key that was once written. -/
def KvSpace.version {α : Type} (space : KvSpace α) (key : String) (version : Option Nat) : Option α :=
  version.bind (fun index =>
    ((space.written.filter (fun pair => pair.key = key))[index]?).map KvPair.value)

/-- A KV read, computed. -/
def KvSpace.answer {α : Type} (space : KvSpace α) (key : String) (outside : Outside)
    : Consistency → Option α
  | .strong => space.read key outside.kvNow
  | .eventual => space.version key outside.version

/-- What a KV call replies, computed. -/
def KvCall.answer (consistency : Consistency) (outside : Outside) : (call : KvCall) → Storage → call.Reply
  | .getRecord sidHash, storage => storage.records.answer sidHash outside consistency
  | .getSeen sidHash, storage => storage.seen.answer sidHash outside consistency
  | .putRecord .., _ => ()
  | .putSeen .., _ => ()

/-- A computed read is one that KV may answer. -/
theorem KvSpace.mayRead_answer {α : Type} (space : KvSpace α) (key : String) (outside : Outside)
    (consistency : Consistency)
    : space.MayRead key outside.kvNow consistency (space.answer key outside consistency) := by
  cases consistency with
  | strong => exact rfl
  | eventual =>
      simp only [answer, version]
      cases outside.version with
      | none => exact .inl rfl
      | some index =>
          cases found : (space.written.filter (fun pair => pair.key = key))[index]? with
          | none => exact .inl (by simp [found])
          | some pair =>
              obtain ⟨member, same⟩ := List.mem_filter.mp (List.mem_of_getElem? found)
              exact .inr ⟨pair, member, of_decide_eq_true same, by simp [found]⟩

/-- Every operation, computed. -/
def compute (platform : Platform) (clock : Millis → Millis → Prop) [DecidableRel clock]
    (consistency : Consistency)
    : Runner Op Op.Reply Storage Outside
  | outside, .called, storage =>
      if clock storage.now outside.now then some (outside.now, { storage with now := outside.now })
      else none
  | outside, .clock, storage =>
      if clock storage.now outside.now then some (outside.now, { storage with now := outside.now })
      else none
  | outside, .listClock, storage =>
      if clock storage.now outside.now then some (outside.now, { storage with now := outside.now })
      else none
  | outside, .randomToken, storage =>
      let sidHash := sha256Hex platform outside.token
      if storage.Unused sidHash then
        some (outside.token, { storage with drawn := sidHash :: storage.drawn })
      else none
  | outside, .recordFirst, storage => some (outside.recordFirst, storage)
  | _, .statement query, storage => query.run storage
  | outside, .kv call, storage =>
      if storage.kvNow ≤ outside.kvNow then
        some (call.answer consistency outside storage, (call.run outside.kvNow storage).2)
      else none

/-- Computed operations are operations of the stores, by cases on the operation. -/
theorem compute_sound (platform : Platform) (clock : Millis → Millis → Prop) [DecidableRel clock]
    (consistency : Consistency)
    : (compute platform clock consistency).Sound (exec platform ⟨clock, consistency⟩) := by
  intro outside op before reply after computed
  cases op with
  | called =>
      simp only [compute, Option.ite_none_right_eq_some] at computed
      obtain ⟨allowed, same⟩ := computed
      cases same
      exact ⟨allowed, rfl⟩
  | clock =>
      simp only [compute, Option.ite_none_right_eq_some] at computed
      obtain ⟨allowed, same⟩ := computed
      cases same
      exact ⟨allowed, rfl⟩
  | listClock =>
      simp only [compute, Option.ite_none_right_eq_some] at computed
      obtain ⟨allowed, same⟩ := computed
      cases same
      exact ⟨allowed, rfl⟩
  | randomToken =>
      simp only [compute, Option.ite_none_right_eq_some] at computed
      obtain ⟨new, same⟩ := computed
      cases same
      exact ⟨new, rfl⟩
  | recordFirst => cases computed; rfl
  | statement query => exact computed
  | kv call =>
      simp only [compute, Option.ite_none_right_eq_some] at computed
      obtain ⟨forward, same⟩ := computed
      cases same
      refine ⟨outside.kvNow, forward, rfl, ?_⟩
      cases call with
      | getRecord sidHash => exact before.records.mayRead_answer sidHash outside consistency
      | getSeen sidHash => exact before.seen.mayRead_answer sidHash outside consistency
      | putRecord sidHash record ttl => trivial
      | putSeen sidHash marker ttl => trivial

-----------------------------------------------------------------------------------------
-- The sample
-----------------------------------------------------------------------------------------

namespace Sample

abbrev platform : Platform := WorkersAuth.Sample.platform

/-- Two session ids, and a session to create. -/
def sid : String := "YGFiY2RlZmdoaWprbG1ub3BxcnN0dXZ3eHl6e3x9fn8"

def otherSid : String := "gIGCg4SFhoeIiYqLjI2Oj5CRkpOUlZaXmJmam5ydnp8"

/-- An hour's idle window within a day. -/
def input : NewSession where
  userId := "user_42"
  subjectType := .user
  idleTtlSec := 3600
  absoluteTtlSec := 86400
  scope := none
  metadata := none

def d1 : SessionStore := .d1 {}

def pg : SessionStore := .pg {}

def kv : SessionStore := .kv { allowUnrevocableSessions := true, constructed := .inr rfl }

/-- D1 with `executionCtx`. -/
def deferring : SessionStore := .d1 { executionCtx := true }

/-- The storage before anything is stored, at time zero. -/
def empty : Storage := .empty 0

/-- The storage after the session has been created at time zero, in D1 or Postgres and in KV. -/
def stored : Storage where
  now := 0
  kvNow := 0
  drawn := [sha256Hex platform sid]
  rows := ⟨[newRow (sha256Hex platform sid) input 0], List.nodup_singleton _⟩
  records := KvSpace.empty.put ⟨sha256Hex platform sid, newRecord input 0, 86400000⟩
  seen := .empty
  guards _ := []
  deferred := []
  tombstones := .empty
  userMarkers := .empty

variable (clock : Millis → Millis → Prop) [DecidableRel clock] (store : SessionStore)

/-- The state a schedule leads to from another. -/
def play (pool : Pool Op Op.Reply Storage Request Answer)
    (schedule : List (Move Request Outside))
    : Option (Pool Op Op.Reply Storage Request Answer) :=
  (sessionService platform ⟨clock, .strong⟩ store).play (compute platform clock .strong) (fun _ _ => true)
    pool schedule

variable {clock store}

theorem run_of_play {pool later : Pool Op Op.Reply Storage Request Answer}
    {schedule : List (Move Request Outside)} (played : play clock store pool schedule = some later)
    : (sessionService platform ⟨clock, .strong⟩ store).Run pool later := by
  have run : (sessionService platform ⟨clock, .strong⟩ store).RunWhen (fun _ _ => True) pool later :=
    Service.play_runWhen (compute_sound platform clock .strong) (fun _ _ _ => trivial) played
  exact run.run

/-- Three states on a played run, as the checks find them. -/
theorem exists_played (clock : Millis → Millis → Prop) [DecidableRel clock] (store : SessionStore)
    (start : Storage) (first second third : List (Move Request Outside))
    (check : (pool later last : Pool Op Op.Reply Storage Request Answer) → Bool)
    (passes : (play clock store (.start start) first).any (fun pool =>
      (play clock store pool second).any (fun later =>
        (play clock store later third).any (check pool later))) = true)
    : ∃ pool later last,
        (sessionService platform ⟨clock, .strong⟩ store).Reachable start pool
        ∧ (sessionService platform ⟨clock, .strong⟩ store).Run pool later
        ∧ (sessionService platform ⟨clock, .strong⟩ store).Run later last
        ∧ check pool later last = true := by
  obtain ⟨pool, started, passes⟩ := (Option.any_eq_true ..).mp passes
  obtain ⟨later, went, passes⟩ := (Option.any_eq_true ..).mp passes
  obtain ⟨last, ended, checked⟩ := (Option.any_eq_true ..).mp passes
  exact ⟨pool, later, last, run_of_play started, run_of_play went, run_of_play ended, checked⟩

/-- Two states on a played run whose calls all meet a condition. -/
theorem exists_played_when (clock : Millis → Millis → Prop) [DecidableRel clock]
    (store : SessionStore) (start : Storage)
    {condition : Pool Op Op.Reply Storage Request Answer → Entry Op Op.Reply → Prop}
    {check : Pool Op Op.Reply Storage Request Answer → Entry Op Op.Reply → Bool}
    (sound : ∀ pool entry, check pool entry = true → condition pool entry)
    (first second : List (Move Request Outside))
    (shows : (pool last : Pool Op Op.Reply Storage Request Answer) → Bool)
    (passes : ((sessionService platform ⟨clock, .strong⟩ store).play (compute platform clock .strong) check
      (.start start) first).any (fun pool =>
        ((sessionService platform ⟨clock, .strong⟩ store).play (compute platform clock .strong) check
          pool second).any (shows pool)) = true)
    : ∃ pool last,
        (sessionService platform ⟨clock, .strong⟩ store).RunWhen condition (.start start) pool
        ∧ (sessionService platform ⟨clock, .strong⟩ store).RunWhen condition pool last
        ∧ shows pool last = true := by
  obtain ⟨pool, started, passes⟩ := (Option.any_eq_true ..).mp passes
  obtain ⟨last, ended, checked⟩ := (Option.any_eq_true ..).mp passes
  exact ⟨pool, last, Service.play_runWhen (compute_sound platform clock .strong) sound started,
    Service.play_runWhen (compute_sound platform clock .strong) sound ended, checked⟩

/-- The next calls of the request at a position, all with one input from outside. -/
def calls (index count : Nat) (outside : Outside) : List (Move Request Outside) :=
  Move.times count index outside

/-- A session is created at time zero by one request. -/
def created : List (Move Request Outside) :=
  .arrive (.create input) :: calls 0 4 { token := sid }

/-- The request at a position created the sample's session. -/
def hasCreated (pool : Pool Op Op.Reply Storage Request Answer) (index : Nat) : Bool :=
  match pool.answerOf index with
  | some (.create _, .created (.ok session)) => session.sid = sid
  | _ => false

theorem hasCreated_answered {pool : Pool Op Op.Reply Storage Request Answer} {index : Nat}
    (check : hasCreated pool index = true)
    : ∃ input session, pool.Answered index (.create input) (.created (.ok session))
        ∧ session.sid = sid := by
  unfold hasCreated at check
  split at check
  · next input session found =>
      exact ⟨input, session, Pool.answerOf_eq_some.mp found, of_decide_eq_true check⟩
  · contradiction

/-- The request at a position is a finished `revoke` of the sample's session. -/
def hasRevoked (pool : Pool Op Op.Reply Storage Request Answer) (index : Nat) : Bool :=
  match pool.answerOf index with
  | some (.revoke other, .done) => other = sid
  | _ => false

theorem hasRevoked_answered {pool : Pool Op Op.Reply Storage Request Answer} {index : Nat}
    (check : hasRevoked pool index = true)
    : pool.Answered index (.revoke sid) .done := by
  unfold hasRevoked at check
  split at check
  · next other found =>
      obtain rfl := of_decide_eq_true check
      exact Pool.answerOf_eq_some.mp found
  · contradiction

/-- The request at a position is a `get` of the sample's session with such an answer. -/
def hasGot (pool : Pool Op Op.Reply Storage Request Answer) (index : Nat)
    (check : Option Session → Bool)
    : Bool :=
  match pool.answerOf index with
  | some (.get other, .found session) => other = sid && check session
  | _ => false

theorem hasGot_answered {pool : Pool Op Op.Reply Storage Request Answer} {index : Nat}
    {check : Option Session → Bool} (checked : hasGot pool index check = true)
    : ∃ session, pool.Answered index (.get sid) (.found session) ∧ check session = true := by
  unfold hasGot at checked
  split at checked
  · next other session found =>
      obtain ⟨same, known⟩ := (Bool.and_eq_true ..).mp checked
      obtain rfl := of_decide_eq_true same
      exact ⟨session, Pool.answerOf_eq_some.mp found, known⟩
  · contradiction

/-- The request at a position is a finished `revokeAllForUser`, called at a time. -/
def hasRevokedAll (pool : Pool Op Op.Reply Storage Request Answer) (index : Nat) (userId : String)
    (check : Millis → Bool)
    : Bool :=
  match pool.answerOf index, pool.history index with
  | some (.revokeAllForUser other, .done), ⟨.called, time⟩ :: _ => other = userId && check time
  | _, _ => false

theorem hasRevokedAll_answered {pool : Pool Op Op.Reply Storage Request Answer} {index : Nat}
    {userId : String} {check : Millis → Bool}
    (checked : hasRevokedAll pool index userId check = true)
    : ∃ time, pool.Answered index (.revokeAllForUser userId) .done
        ∧ ⟨.called, time⟩ ∈ pool.history index ∧ check time = true := by
  unfold hasRevokedAll at checked
  split at checked
  · next other time more found history =>
      obtain ⟨same, known⟩ := (Bool.and_eq_true ..).mp checked
      obtain rfl := of_decide_eq_true same
      exact ⟨time, Pool.answerOf_eq_some.mp found, history ▸ List.mem_cons_self, known⟩
  · contradiction

end Sample

end WorkersAuth.Stores

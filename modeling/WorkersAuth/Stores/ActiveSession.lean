import WorkersAuth.Stores.SessionMeta
import WorkersAuth.Stores.Standing

/-! Sessions in use are not logged out.
The middleware's interval and the KV store's guards leave some requests without a write. What
they leave out costs the idle window at most the longer of the two, once: the last request is
always that close to the last write. So a session that is used often enough is served until
its absolute end.
-/

namespace WorkersAuth.Stores

open Atomic Tables Program

variable {platform : Platform} {store : SessionStore} {time seenAt : Millis}
  {before after : Storage} {sid : String} {creation : Creation}

-----------------------------------------------------------------------------------------
-- A request with the session's cookie
-----------------------------------------------------------------------------------------

/-- KV's own time does not go back while a handler runs. -/
theorem kvNow_handled {α : Type} {consistency : Consistency} {handler : Handler α} {result : α}
    {isolate : Nat} {world next : World Storage}
    (run : Evaluates (store.handles platform consistency isolate time) handler world result next)
    : world.sessions.kvNow ≤ next.sessions.kvNow := by
  have calls (op : WorkersAuth.Op) (start : World Storage) (reply : op.Reply) (finish : World Storage)
      (taken : store.handles platform consistency isolate time op start reply finish)
      (kept : world.sessions.kvNow ≤ start.sessions.kvNow)
      : world.sessions.kvNow ≤ finish.sessions.kvNow := by
    cases op with
    | store call => exact taken.1.2 ▸ kept
    | host call => exact taken.1.2 ▸ kept
    | session call =>
        obtain ⟨made, leads, executes⟩ := taken.1.1.2.trace
        exact executes.keeps (fun storage => world.sessions.kvNow ≤ storage.kvNow)
          (fun _ _ _ _ took kept => kept.trans (kvNow_le took)) kept
  exact run.preserves (fun _ _ => False.elim) calls le_rfl

variable {isolate : Nat} {world next : World Storage} {config : ResolvedAuthConfig} {req : HttpRequest}
  {user : AuthUser} {options : CreateSessionOptions}

/-- Either kind of store object answers a session that is bound to no device. -/
theorem objectGet_stands {object : StoreObject} {found : Option Session}
    (run : Evaluates (store.handles platform .strong isolate time) (object.get sid) world found next)
    (stands : creation.Stands store (sha256Hex platform sid) seenAt world.sessions)
    (unbound : sessionBoundDeviceId (creation.session sid seenAt) = none)
    (idle : time < seenAt + creation.idle) (live : time < creation.absoluteExpiresAt)
    (later : creation.createdAt ≤ time) (early : next.sessions.kvNow ≤ time)
    : found = some (creation.session sid seenAt)
      ∧ creation.Stands store (sha256Hex platform sid) seenAt next.sessions := by
  have onward := kvNow_handled run
  cases object with
  | plain =>
      obtain ⟨reply, middle, ⟨⟨serves, _⟩, _⟩, rest⟩ := evaluates_call.mp run
      obtain ⟨rfl, rfl⟩ := evaluates_pure.mp rest
      obtain ⟨same, kept⟩ := stands.get idle live later serves early
      exact ⟨Answer.found.inj same, kept⟩
  | deviceBound =>
      simp only [StoreObject.get, deviceBoundGet, perform_bind] at run
      obtain ⟨reply, middle, ⟨⟨serves, _⟩, _⟩, rest⟩ := evaluates_call.mp run
      have forward := kvNow_handled rest
      obtain ⟨same, kept⟩ := stands.get idle live later serves (forward.trans early)
      cases Answer.found.inj same
      simp only [unbound] at rest
      obtain ⟨rfl, rfl⟩ := evaluates_pure.mp rest
      exact ⟨rfl, kept⟩

/-- The middleware records a use unless the last record is recent. -/
theorem touchIfDue_stands
    (run : Evaluates (store.handles platform .strong isolate time)
      (touchIfDue config (some (creation.session sid seenAt))) world () next)
    (stands : creation.Stands store (sha256Hex platform sid) seenAt world.sessions)
    (lifetime : creation.idle = config.session.idleTtlSec * sec)
    (seen : seenAt ≤ time) (idle : time < seenAt + creation.idle)
    (live : time < creation.absoluteExpiresAt) (slack : 0 < store.slackSec config.touchIntervalSec)
    (forward : time ≤ world.sessions.kvNow)
    : ∃ recordedAt, creation.Stands store (sha256Hex platform sid) recordedAt next.sessions
        ∧ recordedAt ≤ time ∧ time - recordedAt < store.slackSec config.touchIntervalSec * sec := by
  have lasting : 0 < creation.idle := by
    rw [lifetime]
    exact mul_pos config.idleTtl_pos (by decide)
  simp only [touchIfDue, perform_bind] at run
  obtain ⟨readAt, middle, ⟨⟨_, same⟩, reads⟩, run⟩ := evaluates_call.mp run
  cases (reads : readAt = time)
  split at run
  · obtain ⟨_, last, ⟨⟨serves, _⟩, _⟩, rest⟩ := evaluates_call.mp run
    obtain ⟨_, rfl⟩ := evaluates_pure.mp rest
    rw [same] at serves
    rw [← lifetime] at serves
    exact stands.touch seen lasting idle live slack serves forward
  · next recent =>
      obtain ⟨_, rfl⟩ := evaluates_pure.mp run
      refine ⟨seenAt, same ▸ stands, seen, (not_le.mp recent).trans_le ?_⟩
      exact mul_le_mul_of_nonneg_right (store.le_slackSec _) (by decide)

/-- The reader finds the session under its cookie. -/
theorem readCookieSession_stands {current : CookieSession}
    (run : Evaluates (store.handles platform .strong isolate time)
      (readCookieSession config.toAuthConfig req) world current next)
    (stands : creation.Stands store (sha256Hex platform sid) seenAt world.sessions)
    (minted : ReadsAsMinted config.toAuthConfig user options (creation.session sid seenAt))
    (cookie : options.bearer = false) (unbound : options.internal.deviceId = none)
    (carries : (req.cookie config.cookie.sessionCookieName).filter (· ≠ "") = some sid)
    (idle : time < seenAt + creation.idle) (live : time < creation.absoluteExpiresAt)
    (later : creation.createdAt ≤ time) (early : next.sessions.kvNow ≤ time)
    : current = ⟨some (creation.session sid seenAt), req.cookie config.cookie.csrfCookieName⟩
      ∧ creation.Stands store (sha256Hex platform sid) seenAt next.sessions := by
  have free : sessionBoundDeviceId (creation.session sid seenAt) = none := minted.device.trans unbound
  simp only [readCookieSession, carries] at run
  obtain ⟨found, middle, read, rest⟩ := evaluates_bind.mp run
  obtain ⟨rfl, rfl⟩ := evaluates_pure.mp rest
  obtain ⟨rfl, kept⟩ := objectGet_stands read stands free idle live later early
  refine ⟨?_, kept⟩
  simp [minted.transport, cookie, deviceCheckApplied, free, minted.rateLimited]

/-- A request with the session's cookie that passes the CSRF check. -/
structure PresentsSession (platform : Platform) (config : ResolvedAuthConfig) (sid : String)
    (req : HttpRequest)
    : Prop where
  carries : (req.cookie config.cookie.sessionCookieName).filter (· ≠ "") = some sid
  passes : verifyCsrf platform req (req.cookie config.cookie.csrfCookieName) true false config.csrf = none

/-- A request that presents the session before its window ends is authenticated by it, and
afterwards its last record is no older than the slack; by running the middleware.
-/
theorem createMiddleware_stands {optional : Bool} {outcome : MiddlewareOutcome}
    (run : Evaluates (store.handles platform .strong isolate time)
      (createMiddleware platform config optional req) world outcome next)
    (stands : creation.Stands store (sha256Hex platform sid) seenAt world.sessions)
    (minted : ReadsAsMinted config.toAuthConfig user options (creation.session sid seenAt))
    (cookie : options.bearer = false) (unbound : options.internal.deviceId = none)
    (presents : PresentsSession platform config sid req)
    (lifetime : creation.idle = config.session.idleTtlSec * sec)
    (seen : seenAt ≤ time) (idle : time < seenAt + creation.idle)
    (live : time < creation.absoluteExpiresAt) (slack : 0 < store.slackSec config.touchIntervalSec)
    (forward : time ≤ world.sessions.kvNow) (early : next.sessions.kvNow ≤ time)
    : outcome = .next (some (mintedSubject config.toAuthConfig user))
        (some (toSessionInfo (creation.session sid seenAt)))
      ∧ ∃ recordedAt, creation.Stands store (sha256Hex platform sid) recordedAt next.sessions
        ∧ recordedAt ≤ time ∧ time - recordedAt < store.slackSec config.touchIntervalSec * sec := by
  obtain ⟨auth, middle, resolves, run⟩ := evaluates_bind.mp run
  obtain ⟨current, reached, reads, rest⟩ := evaluates_bind.mp resolves
  have onward : reached.sessions.kvNow ≤ next.sessions.kvNow :=
    (kvNow_handled rest).trans (kvNow_handled run)
  obtain ⟨rfl, kept⟩ := readCookieSession_stands reads stands minted cookie unbound presents.carries
    idle live (stands.since.trans seen) (onward.trans early)
  simp only [Option.bind_some, minted.subject] at rest
  obtain ⟨rfl, rfl⟩ := evaluates_pure.mp rest
  simp only [Option.isSome_some, presents.passes] at run
  obtain ⟨_, last, touches, rest⟩ := evaluates_bind.mp run
  obtain ⟨rfl, rfl⟩ := evaluates_pure.mp rest
  refine ⟨rfl, ?_⟩
  exact touchIfDue_stands touches kept lifetime seen idle live slack
    (forward.trans (kvNow_handled reads))

-----------------------------------------------------------------------------------------
-- Minting
-----------------------------------------------------------------------------------------

/-- A handler that only asks the host leaves the sessions alone. -/
theorem sessions_hosted {α : Type} {consistency : Consistency} {handler : Handler α} {result : α}
    (run : Evaluates (store.handles platform consistency isolate time) handler world result next)
    (within : handler.Within (fun op => ∃ call, op = .host call))
    : next.sessions = world.sessions := by
  obtain ⟨calls, leads, executes⟩ := run.trace
  refine executes.keeps (fun reached => reached.sessions = world.sessions)
    (fun made member before after taken kept => ?_) rfl
  obtain ⟨call, host⟩ := within.made leads made member
  obtain ⟨op, reply⟩ := made
  subst host
  exact taken.1.2 ▸ kept

/-- Issuing cookies asks the host only. -/
theorem issueCookies_hosted (config : AuthConfig) (bearer : Bool) (session : Session)
    : (issueCookies platform config bearer session).Within (fun op => ∃ call, op = .host call) := by
  cases bearer with
  | true => trivial
  | false => simp [issueCookies, WorkersAuth.randomToken, setSessionCookies]

/-- A minted session stands, and reads as it was minted; by running the handler. -/
theorem createSessionFor_stands {config : AuthConfig} {session : Session}
    (run : Evaluates (store.handles platform .strong isolate time)
      (createSessionFor platform config req user options) world (.ok session) next)
    (accounted : world.sessions.Accounted) (past : GuardsPast time world.sessions)
    (now : world.sessions.now = time) (forward : time ≤ world.sessions.kvNow)
    (unrevoked : store.revocation.isSome = true →
      next.sessions.revokes (sha256Hex platform session.sid) user.id time time = false)
    : (minting store config user options time).Stands store (sha256Hex platform session.sid) time
        next.sessions
      ∧ ∀ seenAt, ReadsAsMinted config user options
          ((minting store config user options time).session session.sid seenAt) := by
  unfold createSessionFor at run
  split at run
  · obtain ⟨impossible, _⟩ := evaluates_pure.mp run
    cases impossible
  next limited =>
  split at run
  · obtain ⟨impossible, _⟩ := evaluates_pure.mp run
    cases impossible
  next free =>
  dsimp only at run
  split at run
  · obtain ⟨impossible, _⟩ := evaluates_pure.mp run
    cases impossible
  simp only [perform_bind] at run
  obtain ⟨previous, first, reads, run⟩ := evaluates_bind.mp run
  obtain ⟨_, second, revokes, run⟩ := evaluates_bind.mp run
  obtain ⟨created, third, ⟨⟨creates, _⟩, _⟩, run⟩ := evaluates_call.mp run
  obtain ⟨_, fourth, issues, run⟩ := evaluates_bind.mp run
  obtain ⟨_, fifth, ⟨⟨_, same⟩, _⟩, run⟩ := evaluates_call.mp run
  obtain ⟨named, finished⟩ := evaluates_pure.mp run
  cases named
  rw [finished, same, sessions_hosted issues (issueCookies_hosted ..)] at unrevoked ⊢
  obtain ⟨past, now⟩ := guardsPast_handled reads past now
  obtain ⟨past, _⟩ := guardsPast_handled revokes past now
  have accounted := accounted_handled revokes (accounted_handled reads accounted)
  have forward := forward.trans ((kvNow_handled reads).trans (kvNow_handled revokes))
  obtain ⟨stands, _⟩ := stands_created creates accounted past forward unrevoked
  refine ⟨stands, fun seenAt => ?_⟩
  exact readsAsMinted limited (by simpa using free) rfl rfl rfl rfl

-----------------------------------------------------------------------------------------
-- Runs of requests
-----------------------------------------------------------------------------------------

/-- A visit that is served alone while KV's own time is the clock's. -/
def SessionStore.VisitsInStep (platform : Platform) (store : SessionStore) (before : Storage)
    (visit : Visit) (after : Storage)
    : Prop :=
  before.kvNow ≤ visit.time
  ∧ store.Visits platform .strong { before with kvNow := visit.time } visit after
  ∧ after.kvNow = visit.time

/-- The subject that a request was authenticated as, if any. -/
def Visit.subject (visit : Visit) : Option AuthUser :=
  match visit.work with
  | .request _ _ _ (.next user _) => user
  | _ => none

/-- The visit is a request that presents the session to a middleware. -/
def Visit.Presents (platform : Platform) (config : ResolvedAuthConfig) (sid : String) (visit : Visit)
    : Prop :=
  match visit.work with
  | .request through _ req _ => through = config ∧ PresentsSession platform config sid req
  | _ => False

variable {visit : Visit} {requests : List Visit}

/-- What is stored is accounted for, and no guard remembers what is to come. -/
structure Settled (storage : Storage) : Prop where
  accounted : storage.Accounted
  past : GuardsPast storage.now storage

/-- A visit settles, at its own time. -/
theorem Settled.visited (settled : Settled before)
    (step : store.VisitsInStep platform before visit after)
    : Settled after ∧ before.now ≤ visit.time ∧ after.now = visit.time := by
  obtain ⟨_, visits, _⟩ := step
  have forward : before.now ≤ visit.time := visits.1
  have past : GuardsPast visit.time { before with kvNow := visit.time } :=
    fun isolate entry member => (settled.past isolate entry member).trans forward
  obtain ⟨past, now⟩ := guardsPast_visit visits past
  have noted : Storage.Accounted { before with kvNow := visit.time } :=
    ⟨settled.accounted.rows, settled.accounted.records, settled.accounted.record,
      settled.accounted.seen⟩
  have accounted := accounted_visits (.cons visits .nil) noted
  exact ⟨⟨accounted, now ▸ past⟩, forward, now⟩

/-- Later visits come later, by induction on them. -/
theorem now_le_visits (run : Sequence (store.VisitsInStep platform) before requests after)
    (settled : Settled before)
    : ∀ visit ∈ requests, before.now ≤ visit.time := by
  induction run with
  | nil => simp
  | cons first rest ih =>
      obtain ⟨settled, forward, now⟩ := settled.visited first
      intro visit member
      rcases List.mem_cons.mp member with rfl | later
      · exact forward
      · exact forward.trans (now ▸ ih settled visit later)

/-- A request that presents the session in time is authenticated by it, and afterwards its last
record is no older than the slack.
-/
theorem Creation.Stands.visited {config : ResolvedAuthConfig}
    (stands : creation.Stands store (sha256Hex platform sid) seenAt before)
    (minted : ReadsAsMinted config.toAuthConfig user options (creation.session sid seenAt))
    (cookie : options.bearer = false) (unbound : options.internal.deviceId = none)
    (presents : visit.Presents platform config sid)
    (lifetime : creation.idle = config.session.idleTtlSec * sec)
    (seen : seenAt ≤ visit.time) (idle : visit.time < seenAt + creation.idle)
    (live : visit.time < creation.absoluteExpiresAt)
    (slack : 0 < store.slackSec config.touchIntervalSec)
    (step : store.VisitsInStep platform before visit after)
    : (visit.authenticatedBy platform = some (sha256Hex platform sid)
        ∧ visit.subject = some (mintedSubject config.toAuthConfig user))
      ∧ ∃ recordedAt, creation.Stands store (sha256Hex platform sid) recordedAt after
        ∧ recordedAt ≤ visit.time
        ∧ visit.time - recordedAt < store.slackSec config.touchIntervalSec * sec := by
  obtain ⟨time, isolate, work⟩ := visit
  obtain ⟨_, ⟨_, db, changed, served⟩, pinned⟩ := step
  cases work with
  | mint => exact presents.elim
  | upkeep => exact presents.elim
  | request through optional req outcome =>
      obtain ⟨rfl, presents⟩ := presents
      obtain ⟨rfl, recorded⟩ := createMiddleware_stands served (stands.later time time) minted cookie
        unbound presents lifetime seen idle live slack le_rfl pinned.le
      have carries := (Option.filter_eq_some_iff.mp presents.carries).1
      refine ⟨⟨?_, rfl⟩, recorded⟩
      simp [Visit.authenticatedBy, authenticatedBy, carries]

/-- Often enough: each request follows the one before by no more than the idle lifetime less the
slack.
-/
def OftenEnough (store : SessionStore) (config : ResolvedAuthConfig) (times : List Millis) : Prop :=
  times.IsChain (fun earlier later =>
    later - earlier
      ≤ (config.session.idleTtlSec - store.slackSec config.touchIntervalSec) * sec)

instance (store : SessionStore) (config : ResolvedAuthConfig) (times : List Millis)
    : Decidable (OftenEnough store config times) :=
  inferInstanceAs (Decidable (List.IsChain _ _))

/-- Requests that come often enough are authenticated until the absolute end, by induction on
them: the last record of a use is never older than the slack.
-/
theorem stands_visits {config : ResolvedAuthConfig}
    (run : Sequence (store.VisitsInStep platform) before requests after) (settled : Settled before)
    (stands : creation.Stands store (sha256Hex platform sid) seenAt before)
    (minted : ∀ seenAt,
      ReadsAsMinted config.toAuthConfig user options (creation.session sid seenAt))
    (cookie : options.bearer = false) (unbound : options.internal.deviceId = none)
    (presents : ∀ visit ∈ requests, visit.Presents platform config sid)
    (lifetime : creation.idle = config.session.idleTtlSec * sec)
    (slack : 0 < store.slackSec config.touchIntervalSec)
    (seen : seenAt ≤ before.now)
    (recent : before.now - seenAt < store.slackSec config.touchIntervalSec * sec)
    (often : OftenEnough store config (before.now :: requests.map Visit.time))
    : ∀ visit ∈ requests, visit.time < creation.absoluteExpiresAt →
        visit.authenticatedBy platform = some (sha256Hex platform sid)
        ∧ visit.subject = some (mintedSubject config.toAuthConfig user) := by
  induction run generalizing seenAt with
  | nil => simp
  | @cons before middle after visit more first rest ih =>
      obtain ⟨settled', forward, now⟩ := settled.visited first
      obtain ⟨gap, often⟩ := List.isChain_cons_cons.mp often
      by_cases live : visit.time < creation.absoluteExpiresAt
      · have idle : visit.time < seenAt + creation.idle := by
          rw [lifetime]
          linarith
        obtain ⟨served, recordedAt, stands, recorded, recent⟩ := stands.visited (minted seenAt) cookie
          unbound (presents visit List.mem_cons_self) lifetime (seen.trans forward) idle live slack first
        have later := ih settled' stands (fun visit member => presents visit (List.mem_cons_of_mem _ member))
          (now ▸ recorded) (now ▸ recent) (now ▸ often)
        intro one member early
        rcases List.mem_cons.mp member with rfl | member
        · exact served
        · exact later one member early
      · intro one member early
        rcases List.mem_cons.mp member with rfl | member
        · exact absurd early live
        · have after := now_le_visits rest settled' one member
          exact absurd ((now ▸ after).trans_lt early) live

namespace Sample

/-- The sample's session is minted on KV, with the configured lifetimes. -/
def mintOnKv : Option (Visit × Storage) :=
  (computeHandler Sample.platform kv 0 { token := Sample.sid }
    (createSessionFor Sample.platform resolved.toAuthConfig { cookieRequest with cookie _ := none }
      WorkersAuth.Sample.user {})
    ⟨.empty, { empty with now := 0, kvNow := 0 }⟩).map (fun (result, world) =>
      (⟨0, 0, .mint resolved.toAuthConfig { cookieRequest with cookie _ := none }
        WorkersAuth.Sample.user {} result⟩, world.sessions))

/-- A request with its cookie, in an isolate and at a time. -/
def visitedOnKv (where_ : Nat × Millis) (before : Storage) : Option (Visit × Storage) :=
  if before.now ≤ where_.2 ∧ before.kvNow ≤ where_.2 then
    (computeHandler Sample.platform kv where_.1 { now := where_.2 }
      (createMiddleware Sample.platform resolved false cookieRequest)
      ⟨.empty, { before with now := where_.2, kvNow := where_.2 }⟩).bind (fun (outcome, world) =>
        if world.sessions.kvNow = where_.2 then
          some (⟨where_.2, where_.1, .request resolved false cookieRequest outcome⟩, world.sessions)
        else none)
  else none

/-- Such a request presents the session. -/
theorem visitedOnKv_presents {where_ : Nat × Millis} {before after : Storage} {visit : Visit}
    (visited : visitedOnKv where_ before = some (visit, after))
    : kv.VisitsInStep Sample.platform before visit after
      ∧ visit.Presents Sample.platform resolved Sample.sid := by
  simp only [visitedOnKv, Option.ite_none_right_eq_some] at visited
  obtain ⟨⟨forward, onward⟩, visited⟩ := visited
  obtain ⟨⟨outcome, world⟩, computed, same⟩ := Option.bind_eq_some_iff.mp visited
  obtain ⟨pinned, same⟩ := Option.ite_none_right_eq_some.mp same
  cases same
  exact ⟨⟨onward, ⟨forward, .empty, _, evaluates_of_computed computed⟩, pinned⟩,
    ⟨rfl, by decide +kernel, by decide +kernel⟩⟩

/-- The session is minted and then visited, in two isolates, for almost an hour. -/
def activeOnKv : Option ((Visit × Storage) × (List Visit × Storage)) :=
  mintOnKv.bind (fun minted =>
    (Sequence.play visitedOnKv minted.2 [(0, 30000), (1, 1770000), (0, 3400000)]).map
      (fun later => (minted, later)))

/-- The minting answered the sample's session. -/
def mintedSample (minted : Visit) : Bool :=
  match minted.work with
  | .mint _ _ _ _ (.ok session) => session.sid = Sample.sid
  | _ => false

end Sample

/-- An active session is not logged out early. A session is minted as a cookie session with the
configured lifetimes, on any of the three stores, while the revocation list does not cover it, and
then requests with its cookie that pass the CSRF check come through the middleware one at a
time, in any isolates, each by no more than the idle lifetime less the slack after the one before.
Then every request before the absolute end is authenticated by the session, as the user it was
minted for. Whatever visits came before the minting.
-/
theorem activeSession_served {config : ResolvedAuthConfig} {start : Millis} {earlier : List Visit}
    {minted : Visit} {ready created finish : Storage} {session : Session}
    (prior : Sequence (store.VisitsInStep platform) (.empty start) earlier ready)
    (mint : store.VisitsInStep platform ready minted created)
    (mints : minted.work = .mint config.toAuthConfig req user options (.ok session))
    (configured : options.ttl.getD config.session = config.session)
    (cookie : options.bearer = false) (unbound : options.internal.deviceId = none)
    (unrevoked : store.revocation.isSome = true →
      created.revokes (sha256Hex platform session.sid) user.id minted.time minted.time = false)
    (run : Sequence (store.VisitsInStep platform) created requests finish)
    (presents : ∀ visit ∈ requests, visit.Presents platform config session.sid)
    (slack : 0 < store.slackSec config.touchIntervalSec)
    (often : OftenEnough store config (minted.time :: requests.map Visit.time))
    : ∀ visit ∈ requests, visit.time < minted.time + config.session.absoluteTtlSec * sec →
        visit.authenticatedBy platform = some (sha256Hex platform session.sid)
        ∧ visit.subject = some (mintedSubject config.toAuthConfig user) := by
  have empty : Settled (.empty start) := ⟨accounted_empty start, guardsPast_empty start⟩
  have settled : Settled ready :=
    prior.keeps Settled (fun visit _ _ _ step settled => (settled.visited step).1) empty
  obtain ⟨settled', forward, now⟩ := settled.visited mint
  obtain ⟨time, isolate, work⟩ := minted
  obtain ⟨_, ⟨_, db, changed, served⟩, _⟩ := mint
  cases (mints : work = _)
  have past : GuardsPast time { ready with now := time, kvNow := time } :=
    fun isolate entry member => (settled.past isolate entry member).trans forward
  have accounted : Storage.Accounted { ready with now := time, kvNow := time } :=
    ⟨settled.accounted.rows, settled.accounted.records, settled.accounted.record,
      settled.accounted.seen⟩
  obtain ⟨stands, reads⟩ := createSessionFor_stands served accounted past rfl le_rfl unrevoked
  have lifetime : (minting store config.toAuthConfig user options time).idle
      = config.session.idleTtlSec * sec := by
    simp only [Creation.idle, minting, configured, newSession]
  have absolute : (minting store config.toAuthConfig user options time).absoluteExpiresAt
      = time + config.session.absoluteTtlSec * sec := by
    simp only [Creation.absoluteExpiresAt, minting, configured, newSession]
  have recent : created.now - time < store.slackSec config.touchIntervalSec * sec := by
    rw [now, sub_self]
    exact mul_pos slack (by decide)
  intro visit member early
  exact stands_visits run settled' stands reads cookie unbound presents lifetime slack now.ge recent
    (now.symm ▸ often) visit member (absolute ▸ early)

/-- Minted in isolate 0 on KV and then visited in two isolates for almost an hour, the sample's
session is served each time, although its idle lifetime is half an hour.
-/
theorem activeSession_served_played
    : ∃ minted created requests finish session,
        Sample.kv.VisitsInStep Sample.platform (.empty 0) minted created
        ∧ minted.work = .mint Sample.resolved.toAuthConfig { Sample.cookieRequest with cookie _ := none }
          WorkersAuth.Sample.user {} (.ok session)
        ∧ Sequence (Sample.kv.VisitsInStep Sample.platform) created requests finish
        ∧ requests.map Visit.time = [30000, 1770000, 3400000]
        ∧ ∀ visit ∈ requests, visit.time < minted.time + 86400 * sec →
          visit.authenticatedBy Sample.platform = some (sha256Hex Sample.platform session.sid)
          ∧ visit.subject = some (mintedSubject Sample.resolved.toAuthConfig WorkersAuth.Sample.user) := by
  obtain ⟨⟨⟨minted, created⟩, requests, finish⟩, played, shown⟩ := (Option.any_eq_true ..).mp
    (show Sample.activeOnKv.any (fun played => Sample.mintedSample played.1.1
      && decide (played.1.2.kvNow = 0)
      && decide (played.2.1.map Visit.time = [30000, 1770000, 3400000])) = true by decide +kernel)
  simp only [Bool.and_eq_true, decide_eq_true_eq] at shown
  obtain ⟨⟨own, pinned⟩, times⟩ := shown
  obtain ⟨⟨minted', created'⟩, mints, later⟩ := Option.bind_eq_some_iff.mp played
  obtain ⟨⟨requests', finish'⟩, visited, same⟩ := Option.map_eq_some_iff.mp later
  cases same
  obtain ⟨⟨result, world⟩, computed, same⟩ := Option.map_eq_some_iff.mp mints
  cases same
  cases result with
  | error message => contradiction
  | ok session =>
      let minted : Visit := ⟨0, 0, .mint Sample.resolved.toAuthConfig
        { Sample.cookieRequest with cookie _ := none } WorkersAuth.Sample.user {} (.ok session)⟩
      have mint : Sample.kv.VisitsInStep Sample.platform (.empty 0) minted world.sessions :=
        ⟨le_rfl, ⟨le_rfl, .empty, _, evaluates_of_computed computed⟩, pinned⟩
      have same : session.sid = Sample.sid := of_decide_eq_true own
      have steps : Sequence (fun before visit after =>
          Sample.kv.VisitsInStep Sample.platform before visit after
          ∧ visit.Presents Sample.platform Sample.resolved Sample.sid) world.sessions requests finish := by
        refine Sequence.of_play (fun _ _ _ _ served => ?_) visited
        exact Sample.visitedOnKv_presents served
      have run : Sequence (Sample.kv.VisitsInStep Sample.platform) world.sessions requests finish :=
        steps.weaken (fun _ _ _ _ step => step.1)
      have presents (visit : Visit) (member : visit ∈ requests)
          : visit.Presents Sample.platform Sample.resolved session.sid := by
        obtain ⟨_, _, _, _, _, _, step, _⟩ := steps.cut member
        exact same ▸ step.2
      refine ⟨minted, world.sessions, requests, finish, session, mint, rfl, run, times, ?_⟩
      have often : OftenEnough Sample.kv Sample.resolved [0, 30000, 1770000, 3400000] := by decide +kernel
      exact activeSession_served .nil mint rfl rfl rfl rfl (fun listed => by contradiction) run presents
        (by decide +kernel) (times.symm ▸ often)

end WorkersAuth.Stores

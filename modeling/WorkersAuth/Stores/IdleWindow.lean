import Mathlib.Data.List.Induction
import WorkersAuth.Stores.Histories
import WorkersAuth.Stores.Serving

/-! The idle window a session was minted with.
Every end of the window that a store holds lies within the session's own idle lifetime of a use
of it, as long as the middleware extends it by no more. Then a session that is served was used
within that lifetime.
-/

namespace WorkersAuth.Stores

open Atomic Tables Program

variable {platform : Platform} {consistency : Consistency} {store : SessionStore} {time : Millis}
  {before after : Storage} {sidHash : String} {creation : Creation} {uses : Millis → Prop}
  {request : Request} {answer : Answer}

-----------------------------------------------------------------------------------------
-- Ends of the window
-----------------------------------------------------------------------------------------

/-- `ttl.idleTtlSec * 1000` of the session's own lifetimes. -/
def Creation.idle (creation : Creation) : Millis := creation.input.idleTtlSec * sec

/-- A use of the session and the end of the window that was stored at it. -/
structure Creation.Extends (creation : Creation) (uses : Millis → Prop) (usedAt idleExpiresAt : Millis)
    : Prop where
  used : uses usedAt
  since : creation.createdAt ≤ usedAt
  bound : min idleExpiresAt creation.absoluteExpiresAt ≤ usedAt + creation.idle

/-- The session is stored as it was created, and every end of its window belongs to a use. -/
structure Creation.Windowed (creation : Creation) (uses : Millis → Prop) (sidHash : String)
    (storage : Storage)
    : Prop where
  accounted : storage.Accounted
  owns : creation.Owns sidHash storage
  born : uses creation.createdAt
  rows : ∀ row, storage.rows.find sidHash = some row →
    creation.Extends uses row.lastSeenAt row.idleExpiresAt
  seen : ∀ pair ∈ storage.seen.written, pair.key = sidHash →
    creation.Extends uses pair.value.s pair.value.e

/-- More uses belong to no less. -/
theorem Creation.Extends.mono {more : Millis → Prop} {usedAt idleExpiresAt : Millis}
    (extends' : creation.Extends uses usedAt idleExpiresAt) (le : ∀ time, uses time → more time)
    : creation.Extends more usedAt idleExpiresAt :=
  { extends' with used := le _ extends'.used }

theorem Creation.Windowed.mono {more : Millis → Prop} {storage : Storage}
    (windowed : creation.Windowed uses sidHash storage) (le : ∀ time, uses time → more time)
    : creation.Windowed more sidHash storage where
  accounted := windowed.accounted
  owns := windowed.owns
  born := le _ windowed.born
  rows row stored := (windowed.rows row stored).mono le
  seen pair member same := (windowed.seen pair member same).mono le

/-- The first window ends an idle lifetime after the creation. -/
theorem Creation.extends_created (born : uses creation.createdAt)
    : creation.Extends uses creation.createdAt (creation.createdAt + creation.idle) :=
  ⟨born, le_rfl, min_le_left _ _⟩

/-- A created session has its first window, and none of its markers was written before. -/
theorem Effect.windowed_created {input : NewSession} {session : Session}
    (effect : Effect platform store time before (.create input) (.created (.ok session)) after)
    (accounted : before.Accounted)
    : (⟨store.usesKv, input, time⟩ : Creation).Windowed (fun used => used = time)
        (sha256Hex platform session.sid) after := by
  obtain ⟨owns, unused⟩ := effect.creates accounted
  refine ⟨effect.accounted accounted, owns, rfl, ?_, ?_⟩
  · intro row stored
    cases effect with
    | @createdRow _ sid rows sql free inserted =>
        have own : row = newRow (sha256Hex platform sid) input time := by
          simpa [rowToSession, Table.find_insert inserted, newRow] using stored.symm
        subst own
        refine ⟨rfl, le_rfl, ?_⟩
        exact (min_le_left _ _).trans (min_le_left _ _)
    | createdRecord usesKv free forward => exact absurd (accounted.rows _ _ stored) unused.1
    | quiet quiet wanes now => contradiction
  · intro pair member same
    cases effect with
    | createdRow sql free inserted => exact absurd (List.mem_map.mpr ⟨pair, member, same⟩) unused.2
    | createdRecord usesKv free forward => exact absurd (List.mem_map.mpr ⟨pair, member, same⟩) unused.2
    | quiet quiet wanes now => contradiction

/-- Every call keeps the ends of the window where they belong, when a touch of the session is a
use and moves the end on by no more than the idle lifetime; by cases on the effect.
-/
theorem Effect.windowed (effect : Effect platform store time before request answer after)
    (touches : ∀ isolate sid idleExpiresAt, request = .touch isolate sid idleExpiresAt →
      sha256Hex platform sid = sidHash → creation.Extends uses time idleExpiresAt)
    (windowed : creation.Windowed uses sidHash before)
    : creation.Windowed uses sidHash after := by
  refine ⟨effect.accounted windowed.accounted, effect.owns windowed.owns, windowed.born, ?_, ?_⟩
  · intro row stored
    cases effect with
    | @createdRow input sid rows sql unused inserted =>
        simp only [Table.find_insert inserted] at stored
        split at stored
        · next same =>
            subst same
            exact absurd windowed.owns.drawn unused.1
        · exact windowed.rows row stored
    | @touchedRow isolate sid idleExpiresAt sql =>
        simp only [Table.find_updateWhere, Option.map_eq_some_iff] at stored
        obtain ⟨old, found, changed⟩ := stored
        split at changed
        · next applies =>
            simp only [Bool.and_eq_true, decide_eq_true_eq] at applies
            have same : sha256Hex platform sid = sidHash :=
              applies.1.1.symm.trans (Table.key_of_find found)
            have moved := touches isolate sid idleExpiresAt rfl same
            have bound := moved.bound
            rw [← (windowed.owns.row old found).2.2.2] at bound
            cases changed
            exact ⟨moved.used, moved.since, (min_le_left _ _).trans bound⟩
        · cases changed
          exact windowed.rows _ found
    | quiet quiet wanes now => exact windowed.rows row (wanes.rows _ _ stored)
    | refused => exact windowed.rows row stored
    | createdRecord usesKv unused forward => exact windowed.rows row stored
    | unmarked usesKv => exact windowed.rows row stored
    | marked same early admitted forward => exact windowed.rows row stored
  · intro pair member same
    cases effect with
    | @marked isolate sid idleExpiresAt kvTime ttl guards options kind early admitted forward =>
        rcases List.mem_cons.mp member with rfl | old
        · exact touches isolate sid idleExpiresAt rfl same
        · exact windowed.seen pair old same
    | quiet quiet wanes now => exact windowed.seen pair (wanes.seenWritten ▸ member) same
    | refused => exact windowed.seen pair member same
    | createdRow sql unused inserted => exact windowed.seen pair member same
    | createdRecord usesKv unused forward => exact windowed.seen pair member same
    | touchedRow sql => exact windowed.seen pair member same
    | unmarked usesKv => exact windowed.seen pair member same

/-- A call that is no touch keeps them without further ado. -/
theorem Effect.windowed_untouched (effect : Effect platform store time before request answer after)
    (untouched : request.touchesNone = true) (windowed : creation.Windowed uses sidHash before)
    : creation.Windowed uses sidHash after := by
  refine effect.windowed (fun isolate sid idleExpiresAt touches => ?_) windowed
  subst touches
  contradiction

/-- A session that is served was last seen at a use whose window is still open. -/
theorem Found.extended {sid : String} {session : Session}
    (found : Found platform consistency store time before sid session)
    (windowed : creation.Windowed uses (sha256Hex platform sid) before)
    : ∃ idleExpiresAt, creation.Extends uses session.lastSeenAt idleExpiresAt
        ∧ time < min idleExpiresAt creation.absoluteExpiresAt := by
  cases found with
  | @row row sql stored live unrevoked =>
      refine ⟨row.idleExpiresAt, windowed.rows row stored, ?_⟩
      rw [← (windowed.owns.row row stored).2.2.2]
      simpa [SessionRow.expired] using live
  | @record record seen recordTime seenTime usesKv recordForward read seenForward readSeen live unrevoked =>
      obtain ⟨pair, member, key, rfl⟩ := read.written windowed.accounted.record
      obtain ⟨_, same⟩ := windowed.owns.record pair member key
      rw [same] at live ⊢
      have late : time < (newRecord creation.input creation.createdAt).idleExpiresAt seen := by
        simp only [StoredSession.expired, Bool.or_eq_false_iff, decide_eq_false_iff_not, not_le] at live
        exact live.2
      cases seen with
      | none => exact ⟨_, creation.extends_created windowed.born, late⟩
      | some marker =>
          obtain ⟨mark, written, key, rfl⟩ := readSeen.written windowed.accounted.seen
          exact ⟨mark.value.e, windowed.seen mark written key, late⟩

-----------------------------------------------------------------------------------------
-- Minting and the middleware
-----------------------------------------------------------------------------------------

/-- How `createSessionFor` creates its session. -/
def minting (store : SessionStore) (config : AuthConfig) (user : AuthUser)
    (options : CreateSessionOptions) (time : Millis)
    : Creation where
  usesKv := store.usesKv
  input := newSession config user options (options.ttl.getD config.session)
  createdAt := time

/-- The middleware keeps sessions of these lifetimes to their idle window: its own window is no
longer, or it would first extend theirs when it is over, or so late that they end anyway.
-/
def KeepsIdle (config : ResolvedAuthConfig) (ttl : SessionLifetime) : Prop :=
  config.session.idleTtlSec ≤ ttl.idleTtlSec
  ∨ ttl.idleTtlSec ≤ config.touchIntervalSec
  ∨ ttl.absoluteTtlSec ≤ config.touchIntervalSec + ttl.idleTtlSec

instance (config : ResolvedAuthConfig) (ttl : SessionLifetime) : Decidable (KeepsIdle config ttl) :=
  inferInstanceAs (Decidable (_ ∨ _ ∨ _))

variable {isolate : Nat} {world next : World Storage}

/-- A minted session has its first window, by running the handler. -/
theorem createSessionFor_windowed {config : AuthConfig} {req : HttpRequest} {user : AuthUser}
    {options : CreateSessionOptions} {session : Session}
    (run : Evaluates (store.handles platform consistency isolate time)
      (createSessionFor platform config req user options) world (.ok session) next)
    (accounted : world.sessions.Accounted)
    : (minting store config user options time).Windowed (fun used => used = time)
        (sha256Hex platform session.sid) next.sessions := by
  unfold createSessionFor at run
  split at run
  · obtain ⟨impossible, _⟩ := evaluates_pure.mp run
    cases impossible
  split at run
  · obtain ⟨impossible, _⟩ := evaluates_pure.mp run
    cases impossible
  dsimp only at run
  split at run
  · obtain ⟨impossible, _⟩ := evaluates_pure.mp run
    cases impossible
  simp only [perform_bind] at run
  obtain ⟨previous, first, reads, run⟩ := evaluates_bind.mp run
  obtain ⟨_, second, revokes, run⟩ := evaluates_bind.mp run
  obtain ⟨created, third, ⟨⟨creates, _⟩, _⟩, run⟩ := evaluates_call.mp run
  obtain ⟨_, fourth, issues, run⟩ := evaluates_bind.mp run
  obtain ⟨_, fifth, ⟨⟨_, same⟩, _⟩, run⟩ := evaluates_call.mp run
  obtain ⟨named, finished⟩ := evaluates_pure.mp run
  cases named
  rw [finished, same]
  have accounted := keeps_untouched reads (previousSession_touchesNone ..) Storage.Accounted
    (fun _ _ _ _ _ effect => effect.accounted) accounted
  have accounted := keeps_untouched revokes (revokePrevious_touchesNone _) Storage.Accounted
    (fun _ _ _ _ _ effect => effect.accounted) accounted
  refine keeps_untouched issues (issueCookies_touchesNone ..) _ (fun _ _ _ _ untouched effect => ?_)
    ((serves_effect creates).windowed_created accounted)
  exact effect.windowed_untouched untouched

/-- A touch that the middleware makes is a use, and extends the window by no more than the idle
lifetime; by the cases of `KeepsIdle`.
-/
theorem Creation.Extends.touch {config : ResolvedAuthConfig} {ttl : SessionLifetime}
    {usedAt idleExpiresAt : Millis} (extends' : creation.Extends uses usedAt idleExpiresAt)
    (live : time < min idleExpiresAt creation.absoluteExpiresAt)
    (due : config.touchIntervalSec * sec ≤ time - usedAt)
    (idle : creation.input.idleTtlSec = ttl.idleTtlSec)
    (absolute : creation.input.absoluteTtlSec = ttl.absoluteTtlSec) (keeps : KeepsIdle config ttl)
    : creation.Extends (fun used => uses used ∨ used = time) time
        (time + config.session.idleTtlSec * sec) := by
  have since := extends'.since
  have interval := config.touchInterval_nonneg
  have open' := live.trans_le extends'.bound
  simp only [Creation.idle, sec, idle] at due open'
  refine ⟨.inr rfl, by linarith, ?_⟩
  simp only [Creation.idle, Creation.absoluteExpiresAt, sec, idle, absolute]
  rcases keeps with shorter | past | late
  · exact (min_le_left _ _).trans (by linarith)
  · linarith
  · exact (min_le_right _ _).trans (by linarith)

/-- The middleware's touch leaves the ends of the window where they belong. -/
theorem touchIfDue_windowed {config : ResolvedAuthConfig} {session : Session} {ttl : SessionLifetime}
    (run : Evaluates (store.handles platform consistency isolate time)
      (touchIfDue config (some session)) world () next)
    (windowed : creation.Windowed uses sidHash world.sessions)
    (found : sha256Hex platform session.sid = sidHash →
      ∃ idleExpiresAt, creation.Extends uses session.lastSeenAt idleExpiresAt
        ∧ time < min idleExpiresAt creation.absoluteExpiresAt)
    (idle : creation.input.idleTtlSec = ttl.idleTtlSec)
    (absolute : creation.input.absoluteTtlSec = ttl.absoluteTtlSec)
    (keeps : sha256Hex platform session.sid = sidHash → KeepsIdle config ttl)
    : creation.Windowed (fun used => uses used ∨ used = time ∧ sha256Hex platform session.sid = sidHash)
        sidHash next.sessions := by
  have more : creation.Windowed (fun used => uses used
      ∨ used = time ∧ sha256Hex platform session.sid = sidHash) sidHash world.sessions :=
    windowed.mono (fun _ => .inl)
  simp only [touchIfDue, perform_bind] at run
  obtain ⟨readAt, middle, ⟨⟨_, same⟩, reads⟩, run⟩ := evaluates_call.mp run
  subst same
  cases (reads : readAt = time)
  split at run
  · next due =>
      obtain ⟨_, last, ⟨⟨serves, _⟩, _⟩, rest⟩ := evaluates_call.mp run
      obtain ⟨_, rfl⟩ := evaluates_pure.mp rest
      refine (serves_effect serves).windowed (fun _ sid idleExpiresAt touches own => ?_) more
      cases touches
      obtain ⟨idleExpiresAt, extends', live⟩ := found own
      refine (extends'.touch live due idle absolute (keeps own)).mono (fun used known => ?_)
      exact known.imp_right (fun now => ⟨now, own⟩)
  · obtain ⟨_, rfl⟩ := evaluates_pure.mp run
    exact more

/-- The session that a request with this cookie is authenticated by, if any. -/
def authenticatedBy (platform : Platform) (config : ResolvedAuthConfig) (req : HttpRequest)
    : MiddlewareOutcome → Option String
  | .next _ (some _) => (req.cookie config.cookie.sessionCookieName).map (sha256Hex platform)
  | _ => none

/-- A request through the middleware: when it is authenticated by the session, the session was
used within its idle lifetime, and what the store then has of it belongs to its uses.
-/
theorem createMiddleware_windowed {config : ResolvedAuthConfig} {optional : Bool} {req : HttpRequest}
    {outcome : MiddlewareOutcome} {ttl : SessionLifetime}
    (run : Evaluates (store.handles platform consistency isolate time)
      (createMiddleware platform config optional req) world outcome next)
    (windowed : creation.Windowed uses sidHash world.sessions)
    (idle : creation.input.idleTtlSec = ttl.idleTtlSec)
    (absolute : creation.input.absoluteTtlSec = ttl.absoluteTtlSec)
    (keeps : ∀ sid, req.cookie config.cookie.sessionCookieName = some sid →
      sha256Hex platform sid = sidHash → KeepsIdle config ttl)
    : (authenticatedBy platform config req outcome = some sidHash →
        ∃ used, uses used ∧ time < used + creation.idle)
      ∧ creation.Windowed
          (fun used => uses used
            ∨ used = time ∧ authenticatedBy platform config req outcome = some sidHash)
          sidHash next.sessions := by
  obtain ⟨⟨user, session, csrfCookie⟩, middle, resolves, run⟩ := evaluates_bind.mp run
  have kept : creation.Windowed uses sidHash middle.sessions :=
    keeps_untouched resolves (resolveRequestAuth_touchesNone config req) _
      (fun _ _ _ _ untouched effect => effect.windowed_untouched untouched) windowed
  have unauthenticated (quiet : authenticatedBy platform config req outcome = none)
      (kept : creation.Windowed uses sidHash next.sessions)
      : (authenticatedBy platform config req outcome = some sidHash →
          ∃ used, uses used ∧ time < used + creation.idle)
        ∧ creation.Windowed
            (fun used => uses used
              ∨ used = time ∧ authenticatedBy platform config req outcome = some sidHash)
            sidHash next.sessions := by
    refine ⟨fun impossible => ?_, kept.mono (fun _ => .inl)⟩
    rw [quiet] at impossible
    contradiction
  dsimp only at run
  split at run
  · obtain ⟨_, _, ⟨⟨_, same⟩, _⟩, rest⟩ := evaluates_call.mp run
    obtain ⟨rfl, rfl⟩ := evaluates_pure.mp rest
    exact unauthenticated rfl (same ▸ kept)
  split at run
  · obtain ⟨rfl, rfl⟩ := evaluates_pure.mp run
    exact unauthenticated rfl kept
  · obtain ⟨_, _, ⟨⟨_, same⟩, _⟩, rest⟩ := evaluates_call.mp run
    obtain ⟨rfl, rfl⟩ := evaluates_pure.mp rest
    exact unauthenticated rfl (same ▸ kept)
  · next subject =>
      obtain ⟨_, last, touches, rest⟩ := evaluates_bind.mp run
      obtain ⟨rfl, rfl⟩ := evaluates_pure.mp rest
      cases session with
      | none =>
          obtain ⟨_, rfl⟩ := evaluates_pure.mp touches
          exact unauthenticated rfl kept
      | some session =>
          obtain ⟨presented, found⟩ := resolveRequestAuth_found resolves
          have named : authenticatedBy platform config req
              (.next (some subject) (some (toSessionInfo session)))
              = some (sha256Hex platform session.sid) := by
            simp [authenticatedBy, presented]
          have extended (own : sha256Hex platform session.sid = sidHash) :=
            found.extended (own ▸ windowed)
          refine ⟨fun own => ?_, ?_⟩
          · obtain ⟨idleExpiresAt, extends', live⟩ := extended (Option.some.inj (named.symm.trans own))
            exact ⟨session.lastSeenAt, extends'.used, live.trans_le extends'.bound⟩
          · refine (touchIfDue_windowed touches kept extended idle absolute (keeps _ presented)).mono ?_
            exact fun used => Or.imp_right (fun ⟨now, own⟩ => ⟨now, named.trans (congrArg some own)⟩)

-----------------------------------------------------------------------------------------
-- Histories of visits
-----------------------------------------------------------------------------------------

/-- What was asked and what it was answered: minting a session, a request through the middleware,
or any call of the store that neither creates a session nor touches one.
-/
inductive Work where
  | mint (config : AuthConfig) (req : HttpRequest) (user : AuthUser) (options : CreateSessionOptions)
    (result : Except String Session)
  | request (config : ResolvedAuthConfig) (optional : Bool) (req : HttpRequest)
    (outcome : MiddlewareOutcome)
  | upkeep (request : Request) (answer : Answer)

structure Visit where
  time : Millis
  isolate : Nat
  work : Work

/-- A visit that is served alone, at its time, whatever the device-auth tables hold. -/
def SessionStore.Visits (platform : Platform) (consistency : Consistency) (store : SessionStore)
    (before : Storage) (visit : Visit) (after : Storage)
    : Prop :=
  let handles := store.handles platform consistency visit.isolate visit.time
  before.now ≤ visit.time
  ∧ ∃ db changed,
      match visit.work with
      | .mint config req user options result =>
          Evaluates handles (createSessionFor platform config req user options)
            ⟨db, { before with now := visit.time }⟩ result ⟨changed, after⟩
      | .request config optional req outcome =>
          Evaluates handles (createMiddleware platform config optional req)
            ⟨db, { before with now := visit.time }⟩ outcome ⟨changed, after⟩
      | .upkeep request answer =>
          request.quiet = true
          ∧ Stores.Serves platform consistency visit.time (store.call platform request) before answer after

/-- The session that a visit was authenticated by, if any. -/
def Visit.authenticatedBy (platform : Platform) (visit : Visit) : Option String :=
  match visit.work with
  | .request config _ req outcome => Stores.authenticatedBy platform config req outcome
  | _ => none

/-- A request that presents the session goes through a middleware that keeps its idle window. -/
def Visit.KeepsIdle (platform : Platform) (sidHash : String) (ttl : SessionLifetime) (visit : Visit)
    : Prop :=
  match visit.work with
  | .request config _ req _ =>
      ∀ sid, req.cookie config.cookie.sessionCookieName = some sid →
        sha256Hex platform sid = sidHash → Stores.KeepsIdle config ttl
  | _ => True

/-- The time is noted before the visit. -/
theorem Creation.Windowed.at (windowed : creation.Windowed uses sidHash before)
    : creation.Windowed uses sidHash { before with now := time } where
  accounted := ⟨windowed.accounted.rows, windowed.accounted.records, windowed.accounted.record,
    windowed.accounted.seen⟩
  owns := ⟨windowed.owns.drawn, windowed.owns.row, windowed.owns.record⟩
  born := windowed.born
  rows := windowed.rows
  seen := windowed.seen

variable {visit : Visit} {visits : List Visit} {ttl : SessionLifetime}

/-- One visit: a use of the session comes within its idle lifetime of an earlier one, by cases on
the visit.
-/
theorem windowed_visit (step : store.Visits platform consistency before visit after)
    (windowed : creation.Windowed uses sidHash before)
    (idle : creation.input.idleTtlSec = ttl.idleTtlSec)
    (absolute : creation.input.absoluteTtlSec = ttl.absoluteTtlSec)
    (keeps : visit.KeepsIdle platform sidHash ttl)
    : (visit.authenticatedBy platform = some sidHash →
        ∃ used, uses used ∧ visit.time < used + creation.idle)
      ∧ creation.Windowed
          (fun used => uses used ∨ used = visit.time ∧ visit.authenticatedBy platform = some sidHash)
          sidHash after := by
  obtain ⟨time, isolate, work⟩ := visit
  obtain ⟨forward, db, changed, served⟩ := step
  cases work with
  | mint config req user options result =>
      refine ⟨fun impossible => by simp [Visit.authenticatedBy] at impossible, ?_⟩
      refine Creation.Windowed.mono ?_ (fun _ => .inl)
      exact keeps_untouched served (createSessionFor_touchesNone ..) _
        (fun _ _ _ _ untouched effect => effect.windowed_untouched untouched) windowed.at
  | request config optional req outcome =>
      exact createMiddleware_windowed served windowed.at idle absolute keeps
  | upkeep request answer =>
      obtain ⟨quiet, serves⟩ := served
      refine ⟨fun impossible => by simp [Visit.authenticatedBy] at impossible, ?_⟩
      refine Creation.Windowed.mono ?_ (fun _ => .inl)
      refine (serves_effect serves).windowed_untouched ?_ windowed
      cases request with
      | touch isolate sid idleExpiresAt => contradiction
      | _ => rfl

/-- Any number of visits, by induction on them. -/
theorem windowed_visits (run : Sequence (store.Visits platform consistency) before visits after)
    (windowed : creation.Windowed uses sidHash before)
    (idle : creation.input.idleTtlSec = ttl.idleTtlSec)
    (absolute : creation.input.absoluteTtlSec = ttl.absoluteTtlSec)
    (keeps : ∀ visit ∈ visits, visit.KeepsIdle platform sidHash ttl)
    : creation.Windowed
        (fun used => uses used
          ∨ ∃ visit ∈ visits, used = visit.time ∧ visit.authenticatedBy platform = some sidHash)
        sidHash after := by
  induction run generalizing uses with
  | nil => exact windowed.mono (fun _ => .inl)
  | @cons before middle after visit more first rest ih =>
      have one := (windowed_visit first windowed idle absolute (keeps _ List.mem_cons_self)).2
      refine (ih one (fun visit member => keeps visit (List.mem_cons_of_mem _ member))).mono ?_
      intro used known
      rcases known with (old | ⟨rfl, own⟩) | ⟨visit, member, here⟩
      · exact .inl old
      · exact .inr ⟨visit, List.mem_cons_self, rfl, own⟩
      · exact .inr ⟨visit, List.mem_cons_of_mem _ member, here⟩

/-- What is stored stays accounted for over any number of visits. -/
theorem accounted_visits (run : Sequence (store.Visits platform consistency) before visits after)
    (accounted : before.Accounted)
    : after.Accounted := by
  refine run.keeps Storage.Accounted (fun visit _ before after step accounted => ?_) accounted
  obtain ⟨time, isolate, work⟩ := visit
  obtain ⟨forward, db, changed, served⟩ := step
  have noted : Storage.Accounted { before with now := time } :=
    ⟨accounted.rows, accounted.records, accounted.record, accounted.seen⟩
  cases work with
  | mint config req user options result => exact accounted_handled served noted
  | request config optional req outcome => exact accounted_handled served noted
  | upkeep request answer => exact (serves_effect served.2).accounted accounted

namespace Sample

theorem minute_nonneg : (0 : ℚ) ≤ 60 := by decide

/-- The sample's configuration: half an hour's idle window, extended once a minute. -/
def resolved : ResolvedAuthConfig where
  toAuthConfig := WorkersAuth.Sample.auth
  touchIntervalSec := 60
  providers := []
  touchInterval_nonneg := minute_nonneg

/-- A request with the sample's session cookie. -/
def cookieRequest : HttpRequest where
  method := "GET"
  url := "https://app.example.com/"
  header _ := none
  cookie name := if name = "__Host-session" then some sid else none
  body := .body none

/-- Minting the sample's session on D1, with lifetimes of its own. -/
def mint (ttl : SessionLifetime) (before : Storage) : Option (Visit × Storage) :=
  (computeHandler Sample.platform d1 0 { token := sid }
    (createSessionFor Sample.platform resolved.toAuthConfig { cookieRequest with cookie _ := none }
      WorkersAuth.Sample.user { ttl })
    ⟨.empty, { before with now := 0 }⟩).map (fun (result, world) =>
      (⟨0, 0, .mint resolved.toAuthConfig { cookieRequest with cookie _ := none }
        WorkersAuth.Sample.user { ttl } result⟩, world.sessions))

/-- A request with its cookie at a time. -/
def visitedAt (time : Millis) (before : Storage) : Option (Visit × Storage) :=
  if before.now ≤ time then
    (computeHandler Sample.platform d1 0 { now := time } (createMiddleware Sample.platform resolved false cookieRequest)
      ⟨.empty, { before with now := time }⟩).map (fun (outcome, world) =>
        (⟨time, 0, .request resolved false cookieRequest outcome⟩, world.sessions))
  else none

/-- The session is minted at time zero and then visited at each of the times. -/
def visitsAt (ttl : SessionLifetime) (times : List Millis) : Option (List Visit × Storage) :=
  (mint ttl empty).bind (fun (minted, before) =>
    (Sequence.play visitedAt before times).map (fun (later, after) => (minted :: later, after)))

/-- Computed visits are visits, by cases on what computes them. -/
theorem visitsAt_run {ttl : SessionLifetime} {times : List Millis} {all : List Visit} {finish : Storage}
    (played : visitsAt ttl times = some (all, finish))
    : Sequence (d1.Visits Sample.platform .strong) empty all finish := by
  obtain ⟨⟨minted, before⟩, mints, visited⟩ := Option.bind_eq_some_iff.mp played
  obtain ⟨⟨later, after⟩, plays, same⟩ := Option.map_eq_some_iff.mp visited
  cases same
  obtain ⟨⟨result, world⟩, computed, same⟩ := Option.map_eq_some_iff.mp mints
  cases same
  refine .cons ⟨le_refl _, .empty, _, evaluates_of_computed computed⟩ ?_
  refine Sequence.of_play (fun time before event after served => ?_) plays
  simp only [visitedAt, Option.ite_none_right_eq_some] at served
  obtain ⟨forward, served⟩ := served
  obtain ⟨⟨outcome, world⟩, computed, same⟩ := Option.map_eq_some_iff.mp served
  cases same
  exact ⟨forward, .empty, _, evaluates_of_computed computed⟩

/-- The lifetimes a session was minted with, and what it is stored under. -/
def mintedAs (visit : Visit) : Option (SessionLifetime × String) :=
  match visit.work with
  | .mint config _ _ options (.ok session) =>
      some (options.ttl.getD config.session, sha256Hex Sample.platform session.sid)
  | _ => none

theorem mintedAs_eq_some {minted : Visit} {ttl : SessionLifetime} {hash : String}
    (mints : mintedAs minted = some (ttl, hash))
    : ∃ config req user options session, minted.work = .mint config req user options (.ok session)
        ∧ ttl = options.ttl.getD config.session ∧ hash = sha256Hex Sample.platform session.sid := by
  unfold mintedAs at mints
  split at mints
  · next config req user options session same =>
      cases mints
      exact ⟨config, req, user, options, session, same, rfl, rfl⟩
  · contradiction

/-- The visit goes through a middleware that keeps the idle window. -/
def keepsIdle (ttl : SessionLifetime) (visit : Visit) : Bool :=
  match visit.work with
  | .request config _ _ _ => decide (KeepsIdle config ttl)
  | _ => true

theorem keepsIdle_keeps {ttl : SessionLifetime} {one : Visit} {hash : String}
    (keeps : keepsIdle ttl one = true)
    : one.KeepsIdle Sample.platform hash ttl := by
  unfold keepsIdle at keeps
  unfold Visit.KeepsIdle
  split
  · next config optional req outcome same =>
      rw [same] at keeps
      exact fun _ _ _ => of_decide_eq_true keeps
  · trivial

/-- A request is authenticated by the session, through a middleware that keeps its idle window. -/
def keptUp : List Visit → Bool
  | [minted, visit] => (mintedAs minted).any (fun (ttl, hash) =>
      keepsIdle ttl visit && visit.authenticatedBy Sample.platform = some hash)
  | _ => false

/-- The second of two requests is authenticated by the session, an idle lifetime after the first. -/
def overstayed : List Visit → Bool
  | [minted, first, second] => (mintedAs minted).any (fun (ttl, hash) =>
      second.authenticatedBy Sample.platform = some hash
      && decide (minted.time + ttl.idleTtlSec * sec ≤ second.time)
      && decide (first.time + ttl.idleTtlSec * sec ≤ second.time))
  | _ => false

end Sample

/-- The idle window a session was minted with is honoured where every middleware that is shown the
session keeps to it: a request is authenticated by the session only within the session's own
idle lifetime of its creation or of an earlier such request, and once that lifetime has passed
unused, by no later one. By the ends of the window that the store holds, and by induction on
the later requests.
-/
theorem idleWindow_honoured {start : Millis} {earlier later : List Visit} {minted : Visit}
    {finish : Storage} {config : AuthConfig} {req : HttpRequest} {user : AuthUser}
    {options : CreateSessionOptions} {session : Session}
    (run : Sequence (store.Visits platform consistency) (.empty start) (earlier ++ minted :: later) finish)
    (mints : minted.work = .mint config req user options (.ok session))
    (keeps : ∀ visit ∈ later,
      visit.KeepsIdle platform (sha256Hex platform session.sid) (options.ttl.getD config.session))
    : (∀ between visit rest, later = between ++ visit :: rest →
        visit.authenticatedBy platform = some (sha256Hex platform session.sid) →
        visit.time < minted.time + (options.ttl.getD config.session).idleTtlSec * sec
        ∨ ∃ other ∈ between, other.authenticatedBy platform = some (sha256Hex platform session.sid)
            ∧ visit.time < other.time + (options.ttl.getD config.session).idleTtlSec * sec)
      ∧ ∀ between rest since, later = between ++ rest →
        minted.time + (options.ttl.getD config.session).idleTtlSec * sec ≤ since →
        (∀ visit ∈ between, visit.authenticatedBy platform = some (sha256Hex platform session.sid) →
          visit.time + (options.ttl.getD config.session).idleTtlSec * sec ≤ since) →
        (∀ visit ∈ rest, since ≤ visit.time) →
        ∀ visit ∈ rest, visit.authenticatedBy platform ≠ some (sha256Hex platform session.sid) := by
  obtain ⟨middle, early, late⟩ := Sequence.append_iff.mp run
  obtain ⟨created, ⟨_, db, changed, served⟩, rest⟩ := Sequence.cons_iff.mp late
  rw [mints] at served
  have accounted := accounted_visits early (accounted_empty start)
  have windowed := createSessionFor_windowed served
    ⟨accounted.rows, accounted.records, accounted.record, accounted.seen⟩
  have within : ∀ between visit rest, later = between ++ visit :: rest →
      visit.authenticatedBy platform = some (sha256Hex platform session.sid) →
      visit.time < minted.time + (options.ttl.getD config.session).idleTtlSec * sec
      ∨ ∃ other ∈ between, other.authenticatedBy platform = some (sha256Hex platform session.sid)
          ∧ visit.time < other.time + (options.ttl.getD config.session).idleTtlSec * sec := by
    intro between visit more same own
    subst same
    obtain ⟨last, before, late⟩ := Sequence.append_iff.mp rest
    obtain ⟨_, step, _⟩ := Sequence.cons_iff.mp late
    have used := windowed_visits before windowed rfl rfl (fun visit member => keeps visit (by simp [member]))
    obtain ⟨used, known, near⟩ := (windowed_visit step used rfl rfl (keeps visit (by simp))).1 own
    rcases known with rfl | ⟨other, member, rfl, owned⟩
    · exact .inl near
    · exact .inr ⟨other, member, owned, near⟩
  refine ⟨within, ?_⟩
  intro between rest since same unused others late
  have all : ∀ front back, rest = front ++ back → ∀ visit ∈ front,
      visit.authenticatedBy platform ≠ some (sha256Hex platform session.sid) := by
    intro front
    induction front using List.reverseRecOn with
    | nil => simp
    | append_singleton front visit ih =>
        intro back split
        have sooner := ih (visit :: back) (by simpa using split)
        intro one member
        rcases List.mem_append.mp member with old | new
        · exact sooner one old
        obtain rfl := List.mem_singleton.mp new
        intro own
        have reached := late one (by simp [split])
        rcases within (between ++ front) one back (by simp [same, split]) own with
          near | ⟨other, member, owned, near⟩
        · exact absurd (near.trans_le (unused.trans reached)) (lt_irrefl _)
        · rcases List.mem_append.mp member with before | after
          · exact absurd (near.trans_le ((others other before owned).trans reached)) (lt_irrefl _)
          · exact sooner other after owned
  exact all rest [] (by simp)

/-- On D1, where the session's own idle lifetime is two hours: a request after a minute is
authenticated, which is within that lifetime.
-/
theorem idleWindow_honoured_played
    : ∃ later finish visit rest, ∃ minted : Visit, ∃ config req user options session,
        Sequence (Sample.d1.Visits Sample.platform .strong) Sample.empty (minted :: later) finish
        ∧ minted.work = .mint config req user options (.ok session)
        ∧ later = visit :: rest
        ∧ visit.authenticatedBy Sample.platform = some (sha256Hex Sample.platform session.sid)
        ∧ visit.time < minted.time + (options.ttl.getD config.session).idleTtlSec * sec := by
  obtain ⟨⟨all, finish⟩, played, shown⟩ := (Option.any_eq_true ..).mp
    (show (Sample.visitsAt ⟨7200, 86400⟩ [60000]).any (fun played => Sample.keptUp played.1) = true by
      decide +kernel)
  unfold Sample.keptUp at shown
  split at shown
  · next minted visit same =>
      obtain ⟨⟨ttl, hash⟩, mints, shown⟩ := (Option.any_eq_true ..).mp shown
      obtain ⟨keeps, own⟩ := (Bool.and_eq_true ..).mp shown
      obtain ⟨config, req, user, options, session, work, rfl, rfl⟩ := Sample.mintedAs_eq_some mints
      obtain rfl : all = [minted, visit] := same
      have run : Sequence (Sample.d1.Visits Sample.platform .strong) Sample.empty
          ([] ++ minted :: [visit]) finish := Sample.visitsAt_run played
      have own := of_decide_eq_true own
      have honoured := (idleWindow_honoured run work
        (by simpa using Sample.keepsIdle_keeps keeps)).1 [] visit [] rfl own
      refine ⟨[visit], finish, visit, [], minted, config, req, user, options, session, run, work, rfl,
        own, ?_⟩
      simpa using honoured
  · contradiction

/-- On D1, with an idle lifetime of two minutes: a request after a minute extends the window by the
configured half hour, and a request a quarter of an hour later is authenticated.
-/
theorem idleWindow_overstayed
    : ∃ later finish between visit rest, ∃ minted : Visit, ∃ config req user options session,
        Sequence (Sample.d1.Visits Sample.platform .strong) Sample.empty (minted :: later) finish
        ∧ minted.work = .mint config req user options (.ok session)
        ∧ later = between ++ visit :: rest
        ∧ visit.authenticatedBy Sample.platform = some (sha256Hex Sample.platform session.sid)
        ∧ minted.time + (options.ttl.getD config.session).idleTtlSec * sec ≤ visit.time
        ∧ ∀ other ∈ between,
            other.authenticatedBy Sample.platform = some (sha256Hex Sample.platform session.sid) →
            other.time + (options.ttl.getD config.session).idleTtlSec * sec ≤ visit.time := by
  obtain ⟨⟨all, finish⟩, played, shown⟩ := (Option.any_eq_true ..).mp
    (show (Sample.visitsAt ⟨120, 86400⟩ [60000, 1000000]).any (fun played =>
      Sample.overstayed played.1) = true by decide +kernel)
  unfold Sample.overstayed at shown
  split at shown
  · next minted first second same =>
      obtain ⟨⟨ttl, hash⟩, mints, shown⟩ := (Option.any_eq_true ..).mp shown
      simp only [Bool.and_eq_true, decide_eq_true_eq] at shown
      obtain ⟨⟨own, late⟩, after⟩ := shown
      obtain ⟨config, req, user, options, session, work, rfl, rfl⟩ := Sample.mintedAs_eq_some mints
      obtain rfl : all = [minted, first, second] := same
      have run := Sample.visitsAt_run played
      exact ⟨[first, second], finish, [first], second, [], minted, config, req, user, options, session,
        run, work, rfl, own, late, by simpa using fun _ => after⟩
  · contradiction

end WorkersAuth.Stores

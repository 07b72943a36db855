import Mathlib.Algebra.Order.Floor.Semiring
import WorkersAuth.Atomic.Trace
import WorkersAuth.Counters.Tally
import WorkersAuth.DeviceAuth.BreakerReports
import WorkersAuth.DeviceAuth.FixedWindows

/-! How many clients it takes to open the circuit breaker.
The breaker's row tallies the reports, and each client's row counts its verifications. The breaker's
window is no longer than the limit's, so the failures in it are at most twice the limit for each
client.
-/

namespace WorkersAuth.DeviceAuth

open Atomic Counters

variable {platform : Platform} {cfg : Config} {breaker : CircuitBreaker}

-----------------------------------------------------------------------------------------
-- The rows
-----------------------------------------------------------------------------------------

/-- The tally a bucket's row holds. -/
def Database.tally (db : Database) (bucket : String) : Option (Tally Millis) :=
  (db.limits.find bucket).map (fun row => ⟨row.windowStart, row.count, row.failures⟩)

/-- A report to the breaker is a hit of its tally. -/
theorem hitCircuitBreaker_eq (db : Database) (bucket : String) (windowMs now : Millis) (failed : Bool)
    : (db.hitCircuitBreaker bucket windowMs now failed).2.tally bucket
      = some (Tally.hit windowMs now failed (db.tally bucket)) := by
  have after_eq : (db.hitCircuitBreaker bucket windowMs now failed).2.limits
      = (db.limits.upsertReturning ⟨bucket, now, 1, if failed then 1 else 0⟩ (fun _ => true)
          (Database.countHit windowMs now (if failed then 1 else 0))
          (Database.countHit_bucket windowMs now (if failed then 1 else 0))).2 := rfl
  have failure : (if failed then 1 else 0) = failed.toNat := by cases failed <;> rfl
  simp only [Database.tally, after_eq, Tables.Table.find_upsertReturning, failure]
  cases found : db.limits.find bucket with
  | none => simp [Tally.hit]
  | some row =>
      by_cases lapsed : row.windowStart ≤ now - windowMs
      · simp [Tally.hit, Database.countHit, Database.lapsed, lapsed]
      · simp [Tally.hit, Database.countHit, Database.lapsed, lapsed]

/-- The bucket a call counts a hit in, and when. -/
def hitAt : Op → Option (String × Millis)
  | .store (.hitRateLimit bucket _ now) => some (bucket, now)
  | .store (.hitCircuitBreaker bucket _ now _) => some (bucket, now)
  | _ => none

/-- The hits of each bucket come at times that do not fall. -/
def Orderly (log : List (Entry Op Op.Reply)) : Prop :=
  log.Pairwise (fun earlier later =>
    ∀ first ∈ hitAt earlier.call.op, ∀ second ∈ hitAt later.call.op,
      first.1 = second.1 → first.2 ≤ second.2)

instance (log : List (Entry Op Op.Reply)) : Decidable (Orderly log) :=
  inferInstanceAs (Decidable (List.Pairwise _ _))

/-- The hit of a limit's bucket that a call made. -/
def hitOf (bucket : String) (call : Call Op Op.Reply) : Option (Visit Millis) :=
  match call with
  | ⟨.store (.hitRateLimit hit _ now), answered⟩ =>
      if hit = bucket then some ⟨now, ⟨answered.windowStart, answered.count⟩, true⟩ else none
  | _ => none

/-- The report to the breaker that a call made. -/
def reportOf (call : Call Op Op.Reply) : Option (Millis × Bool) :=
  match call with
  | ⟨.store (.hitCircuitBreaker bucket _ now failed), _⟩ =>
      if bucket = cbBucket then some (now, failed) else none
  | _ => none

/-- The hits of a bucket in a log, oldest first. -/
def hitsIn (bucket : String) (log : List (Entry Op Op.Reply)) : List (Visit Millis) :=
  log.filterMap (fun entry => hitOf bucket entry.call)

/-- The reports in a log, oldest first. -/
def reportsIn (log : List (Entry Op Op.Reply)) : List (Millis × Bool) :=
  log.filterMap (fun entry => reportOf entry.call)

/-- The breaker's row and the rows of the clients' limits tell what is in the log, and so do the uses;
and every report was made by a verification that had been let pass at its time.
-/
structure Accounts (platform : Platform) (cfg : Config) (breaker : CircuitBreaker) (db : Database)
    (uses : List BreakerUse) (log : List (Entry Op Op.Reply))
    : Prop where
  tallied : Tallied (breaker.windowSec * sec) (reportsIn log) (db.tally cbBucket)
  visited : ∀ key, VisitRun .hits (hourSec * sec) cfg.limits.verifiesPerIp
    (hitsIn (verifyBucket key) log) (db.window (verifyBucket key))
  reported : ∀ counts : Millis × Bool → Bool,
    uses.countP (fun use => use.reported.any counts) = (reportsIn log).countP counts
  passed : ∀ key (within : Millis → Bool),
    uses.countP (fun use => use.request.verifyClient platform cfg = some key && use.passed.any within)
      = (hitsIn (verifyBucket key) log).countP (fun visit =>
          Policy.hits.admits cfg.limits.verifiesPerIp visit && within visit.time)
  paid : ∀ use ∈ uses, ∀ report ∈ use.reported,
    ∃ req, use.request = .emailVerify req ∧ use.PassedAt cfg req report.1

section Step

variable {db after : Database} {uses : List BreakerUse} {log : List (Entry Op Op.Reply)} {index : Nat}
  {use : BreakerUse} {now : Millis}

/-- Before anything has happened. -/
theorem Accounts.start (fresh : ∀ row ∈ db.limits.rows, Elsewhere row.bucket)
    : Accounts platform cfg breaker db [] [] := by
  have absent {bucket : String} (concerns : ¬Elsewhere bucket) : db.limits.find bucket = none := by
    refine Tables.Table.find_eq_none_iff.mpr (fun taken => ?_)
    obtain ⟨row, stored, same⟩ := List.mem_map.mp taken
    exact concerns (same ▸ fresh row stored)
  constructor
  case tallied =>
    rw [Database.tally, absent (fun other => other.1 rfl)]
    exact .start
  case visited =>
    intro key
    rw [Database.window, absent (fun other => other.2 key rfl)]
    exact .start
  case reported => exact fun _ => rfl
  case passed => exact fun _ _ => rfl
  case paid => simp

/-- A request that has just arrived has not done anything. -/
theorem Accounts.arrive (accounts : Accounts platform cfg breaker db uses log) (request : Request)
    : Accounts platform cfg breaker db (uses ++ [{ request := request }]) log where
  tallied := accounts.tallied
  visited := accounts.visited
  reported counts := by simpa using accounts.reported counts
  passed key within := by simpa using accounts.passed key within
  paid := by
    intro use member report reported
    rcases List.mem_append.mp member with old | new
    · exact accounts.paid use old report reported
    · obtain rfl := List.mem_singleton.mp new
      simp at reported

/-- A call that counts elsewhere is no hit of a client's limit and no report. -/
theorem countsIn_untold {op : Op} (counts : countsIn Elsewhere op) (reply : op.Reply)
    : (∀ key, hitOf (verifyBucket key) ⟨op, reply⟩ = none)
      ∧ reportOf ⟨op, reply⟩ = none := by
  rcases op with call | call | call
  · cases call with
    | hitRateLimit bucket windowMs time =>
        exact ⟨fun key => if_neg ((counts bucket rfl).2 key), rfl⟩
    | hitCircuitBreaker bucket windowMs time failed =>
        exact ⟨fun _ => rfl, if_neg (counts bucket rfl).1⟩
    | _ => exact ⟨fun _ => rfl, rfl⟩
  · exact ⟨fun _ => rfl, rfl⟩
  · exact ⟨fun _ => rfl, rfl⟩

/-- A call that counts elsewhere leaves the rows that concern the breaker alone. -/
theorem limit_eq_of_elsewhere {σ : Type} {sessions : Semantics SessionCall SessionCall.Reply σ}
    {world after : World σ} {op : Op} {reply : op.Reply} (counts : countsIn Elsewhere op)
    (executes : exec platform sessions op world reply after) {bucket : String}
    (concerns : ¬Elsewhere bucket)
    : after.db.limits.find bucket = world.db.limits.find bucket := by
  rcases op with call | call | call
  · exact call.limit_eq executes.1 (fun counted => concerns (counts bucket counted))
  · rw [executes.2]
  · rw [executes.2]

/-- A call that tells nothing and leaves the rows alone. -/
theorem Accounts.quiet (accounts : Accounts platform cfg breaker db uses log)
    (found : uses[index]? = some use) {next : BreakerUse} {entry : Entry Op Op.Reply}
    (request : next.request = use.request) (passed : next.passed = use.passed)
    (reported : next.reported = use.reported)
    (unhit : ∀ key, hitOf (verifyBucket key) entry.call = none)
    (unreported : reportOf entry.call = none)
    (same : ∀ bucket, ¬Elsewhere bucket → after.limits.find bucket = db.limits.find bucket)
    : Accounts platform cfg breaker after (uses.set index next) (log ++ [entry]) := by
  have hits (key : String)
      : hitsIn (verifyBucket key) (log ++ [entry]) = hitsIn (verifyBucket key) log := by
    simp [hitsIn, List.filterMap_append, unhit]
  have reports : reportsIn (log ++ [entry]) = reportsIn log := by
    simp [reportsIn, List.filterMap_append, unreported]
  constructor
  case tallied =>
    rw [reports, Database.tally, same _ (fun other => other.1 rfl)]
    exact accounts.tallied
  case visited =>
    intro key
    rw [hits, Database.window, same _ (fun other => other.2 key rfl)]
    exact accounts.visited key
  case reported =>
    intro counts
    have moved := countP_ghosts_set found next (fun use => use.reported.any counts)
    rw [reported] at moved
    rw [reports, ← accounts.reported counts]
    exact Nat.add_right_cancel moved
  case passed =>
    intro key within
    have moved := countP_ghosts_set found next (fun use =>
      use.request.verifyClient platform cfg = some key && use.passed.any within)
    rw [request, passed] at moved
    rw [hits, ← accounts.passed key within]
    exact Nat.add_right_cancel moved
  case paid =>
    intro one member report told
    rcases List.mem_or_eq_of_mem_set member with old | rfl
    · exact accounts.paid one old report told
    · rw [reported] at told
      obtain ⟨req, verifies, pass⟩ := accounts.paid use (List.mem_of_getElem? found) report told
      exact ⟨req, request.trans verifies, by rwa [BreakerUse.PassedAt, passed]⟩

/-- The limit of a client is hit by a request of that client. -/
theorem Accounts.hit (accounts : Accounts platform cfg breaker db uses log)
    (found : uses[index]? = some use) {key : String} {thread : Nat} {answered : WindowCount}
    (client : use.request.verifyClient platform cfg = some key) (unpassed : use.passed = none)
    (unreported : use.reported = none)
    (later : ∀ visit ∈ hitsIn (verifyBucket key) log, visit.time ≤ now)
    (ran : db.hitRateLimit (verifyBucket key) (hourSec * sec) now = (answered, after))
    : Accounts platform cfg breaker after
        (uses.set index (use.next platform cfg breaker
          (.store (.hitRateLimit (verifyBucket key) (hourSec * sec) now)) answered))
        (log ++ [⟨thread, .store (.hitRateLimit (verifyBucket key) (hourSec * sec) now), answered⟩]) := by
  have limits {bucket : String} (other : verifyBucket key ≠ bucket)
      : after.limits.find bucket = db.limits.find bucket :=
    StoreCall.limit_eq (.hitRateLimit (verifyBucket key) (hourSec * sec) now) (congrArg some ran)
      (by simpa [StoreCall.countedBucket] using other)
  have next_eq : use.next platform cfg breaker
        (.store (.hitRateLimit (verifyBucket key) (hourSec * sec) now)) answered
      = if answered.count ≤ cfg.limits.verifiesPerIp then { use with passed := some now } else use := by
    simp only [BreakerUse.next, client, Option.map_some, true_and]
  rw [next_eq]
  generalize stepped : (if answered.count ≤ cfg.limits.verifiesPerIp then
    { use with passed := some now } else use) = next
  have kept : next.request = use.request ∧ next.reported = none := by
    rw [← stepped]
    split <;> exact ⟨rfl, unreported⟩
  obtain ⟨visit_eq, window_eq⟩ := limitCall_eq .hits db (verifyBucket key) (hourSec * sec) now
    cfg.limits.verifiesPerIp
  simp only [limitCall, ran] at visit_eq window_eq
  have reports : reportsIn (log ++ [⟨thread,
      .store (.hitRateLimit (verifyBucket key) (hourSec * sec) now), answered⟩]) = reportsIn log := by
    simp [reportsIn, List.filterMap_append, reportOf]
  have hits (other : String) : hitsIn (verifyBucket other) (log ++ [⟨thread,
        .store (.hitRateLimit (verifyBucket key) (hourSec * sec) now), answered⟩])
      = hitsIn (verifyBucket other) log
        ++ if key = other then [⟨now, ⟨answered.windowStart, answered.count⟩, true⟩] else [] := by
    by_cases same : key = other
    · simp [hitsIn, List.filterMap_append, hitOf, same]
    · have apart : verifyBucket key ≠ verifyBucket other :=
        fun equal => same (verifyBucket_injective equal)
      simp [hitsIn, List.filterMap_append, hitOf, same, apart]
  constructor
  case tallied =>
    have apart : verifyBucket key ≠ cbBucket := fun same => cbBucket_ne_verifyBucket key same.symm
    rw [reports, Database.tally, limits apart]
    exact accounts.tallied
  case visited =>
    intro other
    by_cases same : key = other
    · subst same
      rw [hits, if_pos rfl, window_eq, visit_eq]
      exact (accounts.visited key).visit later
    · rw [hits, if_neg same, List.append_nil, Database.window,
        limits (fun equal => same (verifyBucket_injective equal))]
      exact accounts.visited other
  case reported =>
    intro counts
    have moved := countP_ghosts_set found next (fun use => use.reported.any counts)
    rw [kept.2, unreported] at moved
    rw [reports, ← accounts.reported counts]
    exact Nat.add_right_cancel moved
  case passed =>
    intro other within
    have moved := countP_ghosts_set found next (fun use =>
      use.request.verifyClient platform cfg = some other && use.passed.any within)
    rw [kept.1, client, unpassed, ← stepped] at moved
    rw [hits, List.countP_append, ← accounts.passed other within, ← stepped]
    by_cases same : key = other
    · subst same
      by_cases admitted : answered.count ≤ cfg.limits.verifiesPerIp
      · simpa [admitted, Policy.admits, List.countP_singleton] using moved
      · simpa [admitted, unpassed, Policy.admits, List.countP_singleton] using moved
    · simpa [same] using moved
  case paid =>
    intro one member report told
    rcases List.mem_or_eq_of_mem_set member with old | rfl
    · exact accounts.paid one old report told
    · simp [kept.2] at told

/-- A verification that was let pass reports to the breaker. -/
theorem Accounts.report (accounts : Accounts platform cfg breaker db uses log)
    (found : uses[index]? = some use) {thread : Nat} {failed : Bool} {answered : CircuitBreakerState}
    {req : HttpRequest} (lasting : 0 < breaker.windowSec) (unreported : use.reported = none)
    (verifies : use.request = .emailVerify req) (passed : use.PassedAt cfg req now)
    (later : ∀ report ∈ reportsIn log, report.1 ≤ now)
    (ran : db.hitCircuitBreaker cbBucket (breaker.windowSec * sec) now failed = (answered, after))
    : Accounts platform cfg breaker after
        (uses.set index { use with reported := some (now, failed) })
        (log ++ [⟨thread, .store (.hitCircuitBreaker cbBucket (breaker.windowSec * sec) now failed),
          answered⟩]) := by
  have reports : reportsIn (log ++ [⟨thread,
        .store (.hitCircuitBreaker cbBucket (breaker.windowSec * sec) now failed), answered⟩])
      = reportsIn log ++ [(now, failed)] := by
    simp [reportsIn, List.filterMap_append, reportOf]
  have hits (key : String) : hitsIn (verifyBucket key) (log ++ [⟨thread,
        .store (.hitCircuitBreaker cbBucket (breaker.windowSec * sec) now failed), answered⟩])
      = hitsIn (verifyBucket key) log := by
    simp [hitsIn, List.filterMap_append, hitOf]
  constructor
  case tallied =>
    have tally_eq := hitCircuitBreaker_eq db cbBucket (breaker.windowSec * sec) now failed
    rw [ran] at tally_eq
    rw [reports, tally_eq]
    exact accounts.tallied.hit (mul_pos lasting (by decide +kernel)) later
  case visited =>
    intro key
    have apart := cbBucket_ne_verifyBucket key
    rw [hits, StoreCall.window_eq
      (.hitCircuitBreaker cbBucket (breaker.windowSec * sec) now failed) (congrArg some ran)
      (by simpa [StoreCall.countedBucket] using apart)]
    exact accounts.visited key
  case reported =>
    intro counts
    have moved := countP_ghosts_set found { use with reported := some (now, failed) }
      (fun use => use.reported.any counts)
    simp only [unreported, Option.any_none, Option.any_some] at moved
    simpa [reports, List.countP_append, List.countP_singleton, accounts.reported counts] using moved
  case passed =>
    intro key within
    have moved := countP_ghosts_set found { use with reported := some (now, failed) } (fun use =>
      use.request.verifyClient platform cfg = some key && use.passed.any within)
    rw [hits, ← accounts.passed key within]
    exact Nat.add_right_cancel moved
  case paid =>
    intro one member report told
    rcases List.mem_or_eq_of_mem_set member with old | rfl
    · exact accounts.paid one old report told
    · obtain rfl := Option.some.inj told
      exact ⟨req, verifies, passed⟩

end Step

-----------------------------------------------------------------------------------------
-- Every reachable state
-----------------------------------------------------------------------------------------

/-- A hit was made at its visit's time. -/
theorem hitAt_of_hitOf {bucket : String} {call : Call Op Op.Reply} {visit : Visit Millis}
    (told : hitOf bucket call = some visit)
    : hitAt call.op = some (bucket, visit.time) := by
  obtain ⟨op, reply⟩ := call
  rcases op with call | call | call
  · cases call with
    | hitRateLimit hit windowMs now =>
        simp only [hitOf, Option.ite_none_right_eq_some] at told
        obtain ⟨rfl, ⟨⟩⟩ := told
        rfl
    | _ => simp [hitOf] at told
  · simp [hitOf] at told
  · simp [hitOf] at told

/-- A report was made at its time. -/
theorem hitAt_of_reportOf {call : Call Op Op.Reply} {report : Millis × Bool}
    (told : reportOf call = some report)
    : hitAt call.op = some (cbBucket, report.1) := by
  obtain ⟨op, reply⟩ := call
  rcases op with call | call | call
  · cases call with
    | hitCircuitBreaker hit windowMs now failed =>
        simp only [reportOf, Option.ite_none_right_eq_some] at told
        obtain ⟨rfl, ⟨⟩⟩ := told
        rfl
    | _ => simp [reportOf] at told
  · simp [reportOf] at told
  · simp [reportOf] at told

/-- Earlier hits of a bucket are no later than the next one. -/
theorem Orderly.hits_le {log : List (Entry Op Op.Reply)} {entry : Entry Op Op.Reply} {bucket : String}
    {now : Millis} (orderly : Orderly (log ++ [entry]))
    (hits : hitAt entry.call.op = some (bucket, now))
    : ∀ visit ∈ hitsIn bucket log, visit.time ≤ now := by
  intro visit member
  obtain ⟨earlier, logged, told⟩ := List.mem_filterMap.mp member
  exact (List.pairwise_append.mp orderly).2.2 earlier logged entry (List.mem_singleton_self _)
    (bucket, visit.time) (hitAt_of_hitOf told) (bucket, now) hits rfl

/-- Earlier reports are no later than the next one. -/
theorem Orderly.reports_le {log : List (Entry Op Op.Reply)} {entry : Entry Op Op.Reply} {now : Millis}
    (orderly : Orderly (log ++ [entry])) (hits : hitAt entry.call.op = some (cbBucket, now))
    : ∀ report ∈ reportsIn log, report.1 ≤ now := by
  intro report member
  obtain ⟨earlier, logged, told⟩ := List.mem_filterMap.mp member
  exact (List.pairwise_append.mp orderly).2.2 earlier logged entry (List.mem_singleton_self _)
    (cbBucket, report.1) (hitAt_of_reportOf told) (cbBucket, now) hits rfl

variable (platform cfg breaker) in
/-- What a request has done about the breaker, as its own calls tell. -/
def breakerUse (one : Progress Op Op.Reply Request Response) : BreakerUse :=
  (breakerMonitor platform cfg breaker).track { request := one.request } one.history

variable (platform cfg breaker) in
/-- The request reported to the breaker at this time or later. -/
def reportedSince (start : Millis) (one : Progress Op Op.Reply Request Response) : Bool :=
  (breakerUse platform cfg breaker one).reported.any (fun report => start ≤ report.1)

variable (platform cfg breaker) in
/-- The request reported a failure to the breaker at this time or later. -/
def failedSince (start : Millis) (one : Progress Op Op.Reply Request Response) : Bool :=
  (breakerUse platform cfg breaker one).reported.any (fun report => report.2 && start ≤ report.1)

section Reachable

variable {σ : Type} {sessions : Semantics SessionCall SessionCall.Reply σ} {world : World σ}
  {pool : Pool Op Op.Reply (World σ) Request Response}

/-- The rows and the uses account for the log in every reachable state, by the invariant rule. -/
theorem reachable_accounts (configured : cfg.breaker = some breaker) (lasting : 0 < breaker.windowSec)
    (fresh : ∀ row ∈ world.db.limits.rows, Elsewhere row.bucket)
    (reach : (deviceAuth platform cfg sessions).Reachable world pool) (orderly : Orderly pool.log)
    : Accounts platform cfg breaker pool.world.db
        (pool.ghosts (breakerMonitor platform cfg breaker) (fun request => { request })) pool.log := by
  refine reach.invariant (fun _ _ _ _ _ => trivial) (handle_settles configured)
    (fun world uses log => Orderly log → Accounts platform cfg breaker world.db uses log)
    (fun _ => .start fresh) (fun _ _ _ request kept orderly => (kept orderly).arrive request) ?_
    orderly
  intro world uses log index use op reply after found allowed executes kept orderly
  have accounts := kept (List.pairwise_append.mp orderly).1
  rcases allowed with counts | ⟨key, now, rfl, client, unpassed, unreported⟩
    | ⟨now, failed, req, rfl, unreported, verifies, passed⟩
  · obtain ⟨request, passed, reported⟩ := next_elsewhere use counts reply
    obtain ⟨unhit, untold⟩ := countsIn_untold counts reply
    exact accounts.quiet found request passed reported unhit untold
      (fun bucket concerns => limit_eq_of_elsewhere counts executes concerns)
  · exact accounts.hit found client unpassed unreported (orderly.hits_le rfl)
      (Option.some.inj executes.1)
  · have next_eq : (breakerMonitor platform cfg breaker).next use
        (.store (.hitCircuitBreaker cbBucket (breaker.windowSec * sec) now failed)) reply
        = { use with reported := some (now, failed) } := by
      simp [breakerMonitor, BreakerUse.next]
    rw [next_eq]
    exact accounts.report found lasting unreported verifies passed (orderly.reports_le rfl)
      (Option.some.inj executes.1)

variable (platform cfg breaker) in
/-- The keys of the clients whose verifications failed at this time or later. -/
def failingClients (pool : Pool Op Op.Reply (World σ) Request Response) (start : Millis)
    : Finset String :=
  ((pool.progress.filter (failedSince platform cfg breaker start)).filterMap
    (fun one => one.request.verifyClient platform cfg)).toFinset

/-- The ghost of a request keeps the request, by induction on its calls. -/
theorem breakerUse_request (one : Progress Op Op.Reply Request Response)
    : (breakerUse platform cfg breaker one).request = one.request := by
  have kept (use : BreakerUse) (op : Op) (reply : op.Reply)
      : (use.next platform cfg breaker op reply).request = use.request := by
    unfold BreakerUse.next
    split <;> first | rfl | (split <;> rfl)
  obtain ⟨request, history, rest⟩ := one
  induction history using List.reverseRecOn with
  | nil => rfl
  | append_singleton history call ih =>
      rw [breakerUse, Monitor.track_append, Monitor.track_singleton]
      exact (kept _ _ _).trans ih

/-- The breaker's row in a reachable state: it counts the requests that reported in its window and
those that reported a failure, each client failed at most twice its limit, and so many clients
failed.
-/
structure BreakerExact (platform : Platform) (cfg : Config) (breaker : CircuitBreaker)
    (pool : Pool Op Op.Reply (World σ) Request Response) (row : RateLimitRow)
    : Prop where
  attempts : row.count = pool.progress.countP (reportedSince platform cfg breaker row.windowStart)
  failures : row.failures = pool.progress.countP (failedSince platform cfg breaker row.windowStart)
  each : ∀ key, pool.progress.countP (fun one => failedSince platform cfg breaker row.windowStart one
      && one.request.verifyClient platform cfg = some key) ≤ 2 * cfg.limits.verifiesPerIp
  clients : row.failures ≤ 2 * cfg.limits.verifiesPerIp
    * (failingClients platform cfg breaker pool row.windowStart).card

/-- Every verification has a client: it carries an IP, or must. -/
def Identified (cfg : Config) (pool : Pool Op Op.Reply (World σ) Request Response) : Prop :=
  cfg.requireClientIp = true
  ∨ ∀ index req, pool.requestOf index = some (.emailVerify req) →
      ((cfg.getClientIp req).filter (· ≠ "")).isSome

/-- A request that reported since a time: when it reported, and that its client was let pass then. -/
theorem reported_paid (accounts : Accounts platform cfg breaker pool.world.db
      (pool.ghosts (breakerMonitor platform cfg breaker) (fun request => { request })) pool.log)
    {one : Progress Op Op.Reply Request Response} (member : one ∈ pool.progress)
    {counts : Millis × Bool → Bool}
    (reported : (breakerUse platform cfg breaker one).reported.any counts = true)
    : ∃ report ∈ reportsIn pool.log, counts report = true ∧ ∃ req, one.request = .emailVerify req
        ∧ (breakerUse platform cfg breaker one).PassedAt cfg req report.1 := by
  obtain ⟨report, told, counted⟩ := (Option.any_eq_true ..).mp reported
  have listed : breakerUse platform cfg breaker one
      ∈ pool.ghosts (breakerMonitor platform cfg breaker) (fun request => { request }) :=
    List.mem_map_of_mem member
  have logged : 0 < (reportsIn pool.log).countP (fun other => other = report) := by
    rw [← accounts.reported]
    exact List.countP_pos_iff.mpr ⟨_, listed, by simp [told]⟩
  obtain ⟨other, inside, same⟩ := List.countP_pos_iff.mp logged
  obtain rfl : other = report := by simpa using same
  obtain ⟨req, verifies, passed⟩ := accounts.paid _ listed other told
  exact ⟨other, inside, counted, req, (breakerUse_request one).symm.trans verifies, passed⟩

/-- The failures of one client since the breaker's window opened: the client was let pass as often, in
less than two of its windows.
-/
theorem failedSince_le (short : breaker.windowSec ≤ hourSec) (room : 0 < cfg.limits.verifiesPerIp)
    (accounts : Accounts platform cfg breaker pool.world.db
      (pool.ghosts (breakerMonitor platform cfg breaker) (fun request => { request })) pool.log)
    {row : RateLimitRow} (found : pool.world.db.limits.find cbBucket = some row) (key : String)
    : pool.progress.countP (fun one => failedSince platform cfg breaker row.windowStart one
        && one.request.verifyClient platform cfg = some key) ≤ 2 * cfg.limits.verifiesPerIp := by
  have tallied := accounts.tallied
  rw [Database.tally, found, Option.map_some] at tallied
  let inside (time : Millis) : Bool :=
    row.windowStart ≤ time && time < row.windowStart + hourSec * sec
  calc
    _ ≤ (pool.ghosts (breakerMonitor platform cfg breaker) (fun request => { request })).countP
          (fun use =>
            use.request.verifyClient platform cfg = some key && use.passed.any inside) := by
      rw [Pool.ghosts, List.countP_map]
      refine List.countP_mono_left (fun one member counted => ?_)
      obtain ⟨failed, client⟩ := (Bool.and_eq_true ..).mp counted
      have client := of_decide_eq_true client
      obtain ⟨report, logged, since, req, verifies, passed⟩ := reported_paid accounts member failed
      have same : (breakerUse platform cfg breaker one).request = one.request := breakerUse_request one
      have let_pass : (breakerUse platform cfg breaker one).passed = some report.1 := by
        rw [verifies] at client
        obtain ⟨ip, carried, -⟩ := Option.map_eq_some_iff.mp client
        rwa [BreakerUse.PassedAt, carried] at passed
      have before : report.1 < row.windowStart + hourSec * sec := by
        refine (tallied.within _ rfl report logged).trans_le ?_
        gcongr
        norm_num [sec]
      have since : row.windowStart ≤ report.1 := by
        simpa using ((Bool.and_eq_true ..).mp since).2
      show (decide ((breakerUse platform cfg breaker one).request.verifyClient platform cfg = some key)
        && (breakerUse platform cfg breaker one).passed.any inside) = true
      simp [same, client, let_pass, inside, since, before]
    _ = _ := accounts.passed key inside
    _ ≤ _ := by
      have hour : 0 < hourSec * sec := mul_pos (by norm_num [hourSec]) (by norm_num [sec])
      have exact := (accounts.visited key).exact hour room
      refine exact.admitted_le inside (fun first last from_ until_ => ?_)
      simp only [inside, Bool.and_eq_true, decide_eq_true_eq] at from_ until_
      linarith

/-- The breaker's row is exact in every reachable state. -/
theorem reachable_breakerExact (configured : cfg.breaker = some breaker)
    (lasting : 0 < breaker.windowSec) (short : breaker.windowSec ≤ hourSec) (room : 0 < cfg.limits.verifiesPerIp)
    (fresh : ∀ row ∈ world.db.limits.rows, Elsewhere row.bucket)
    (reach : (deviceAuth platform cfg sessions).Reachable world pool) (orderly : Orderly pool.log)
    (identified : Identified cfg pool) {row : RateLimitRow}
    (found : pool.world.db.limits.find cbBucket = some row)
    : BreakerExact platform cfg breaker pool row := by
  have accounts := reachable_accounts configured lasting fresh reach orderly
  have counts (told : Millis × Bool → Bool)
      : pool.progress.countP (fun one => (breakerUse platform cfg breaker one).reported.any told)
        = (reportsIn pool.log).countP told := by
    rw [← accounts.reported told, Pool.ghosts, List.countP_map]
    rfl
  have tallied := accounts.tallied
  rw [Database.tally, found, Option.map_some] at tallied
  have each := failedSince_le short room accounts found
  have failures : row.failures
      = pool.progress.countP (failedSince platform cfg breaker row.windowStart) :=
    (tallied.failed _ rfl).trans (counts _).symm
  refine ⟨(tallied.all _ rfl).trans (counts _).symm, failures, each, ?_⟩
  let failing := pool.progress.filter (failedSince platform cfg breaker row.windowStart)
  let clientOf (one : Progress Op Op.Reply Request Response) : String :=
    (one.request.verifyClient platform cfg).getD ""
  have known : ∀ one ∈ failing, one.request.verifyClient platform cfg = some (clientOf one) := by
    intro one member
    obtain ⟨there, failed⟩ := List.mem_filter.mp member
    obtain ⟨report, _, _, req, verifies, passed⟩ := reported_paid accounts there failed
    cases carried : (cfg.getClientIp req).filter (· ≠ "") with
    | some ip =>
        simp only [clientOf, verifies, Request.verifyClient, carried, Option.map_some,
          Option.getD_some]
    | none =>
        rw [BreakerUse.PassedAt, carried] at passed
        rcases identified with required | carries
        · simp [required] at passed
        · obtain ⟨index, inside, same⟩ := List.mem_iff_getElem.mp there
          have at_index : pool.progress[index]? = some one :=
            List.getElem?_eq_some_iff.mpr ⟨inside, same⟩
          rw [Service.getElem?_progress, Option.map_eq_some_iff] at at_index
          obtain ⟨thread, found, rfl⟩ := at_index
          have serves : pool.requestOf index = some (.emailVerify req) := by
            rw [Pool.requestOf, found]
            exact congrArg some verifies
          have carried_some := carries index req serves
          rw [carried] at carried_some
          simp at carried_some
  have clients : failingClients platform cfg breaker pool row.windowStart
      = (failing.map clientOf).toFinset :=
    congrArg List.toFinset (List.filterMap_eq_map_iff_forall_eq_some.mpr known)
  rw [failures, List.countP_eq_length_filter, clients]
  refine length_le_mul_card failing clientOf _ (fun key => ?_)
  refine le_trans (le_of_eq_of_le List.countP_filter (List.countP_mono_left ?_)) (each key)
  intro one member counted
  obtain ⟨same, failed⟩ := (Bool.and_eq_true ..).mp counted
  have client := known one (List.mem_filter.mpr ⟨member, failed⟩)
  rw [of_decide_eq_true same] at client
  simp [failed, client]

/-- Only a reading of the breaker finds its failures at their minimum. -/
theorem opened_next {use : BreakerUse} {op : Op} {reply : op.Reply} (closed : use.opened = false)
    (opened : (use.next platform cfg breaker op reply).opened = true)
    : ∃ now cb, (⟨op, reply⟩ : Call Op Op.Reply)
          = ⟨.store (.readCircuitBreaker cbBucket (breaker.windowSec * sec) now), cb⟩
        ∧ breaker.minFailures ≤ cb.failures := by
  rcases op with call | call | call
  · cases call with
    | readCircuitBreaker bucket windowMs now =>
        simp only [BreakerUse.next] at opened
        split at opened
        · next all =>
            obtain ⟨rfl, rfl, enough⟩ := all
            exact ⟨now, reply, rfl, enough⟩
        · simp [closed] at opened
    | hitRateLimit bucket windowMs now =>
        simp only [BreakerUse.next] at opened
        split at opened <;> simp [closed] at opened
    | hitCircuitBreaker bucket windowMs now failed =>
        simp only [BreakerUse.next] at opened
        split at opened <;> simp [closed] at opened
    | _ => simp [BreakerUse.next, closed] at opened
  · simp [BreakerUse.next, closed] at opened
  · simp [BreakerUse.next, closed] at opened

/-- A verification that found the breaker's failures at their minimum read them off its row, by
induction on its calls.
-/
theorem opened_read {one : Progress Op Op.Reply Request Response}
    (opened : (breakerUse platform cfg breaker one).opened = true)
    : ∃ now cb, ⟨.store (.readCircuitBreaker cbBucket (breaker.windowSec * sec) now), cb⟩ ∈ one.history
        ∧ breaker.minFailures ≤ cb.failures := by
  obtain ⟨request, history, rest⟩ := one
  induction history using List.reverseRecOn with
  | nil => simp [breakerUse] at opened
  | append_singleton history call ih =>
      rw [breakerUse, Monitor.track_append, Monitor.track_singleton] at opened
      by_cases before : (breakerUse platform cfg breaker ⟨request, history, rest⟩).opened = true
      · obtain ⟨now, cb, recorded, enough⟩ := ih before
        exact ⟨now, cb, List.mem_append_left _ recorded, enough⟩
      · obtain ⟨op, reply⟩ := call
        obtain ⟨now, cb, same, enough⟩ := opened_next (eq_false_of_ne_true before) opened
        exact ⟨now, cb, List.mem_append_right _ (List.mem_singleton.mpr same.symm), enough⟩

/-- The circuit breaker cannot be opened by few clients. In every interleaving whose hits come at times
that do not fall, its row counts exactly the verifications that compared a live code in its window and
those of them that failed; each client accounts for at most twice its hourly limit of the failures; and
an answer 503 was given on a reading of the row at which enough clients had failed.
-/
theorem breaker_needs_clients (configured : cfg.breaker = some breaker)
    (lasting : 0 < breaker.windowSec) (short : breaker.windowSec ≤ hourSec) (some_ : 0 < breaker.minFailures)
    (room : 0 < cfg.limits.verifiesPerIp)
    (fresh : ∀ row ∈ world.db.limits.rows, Elsewhere row.bucket)
    (reach : (deviceAuth platform cfg sessions).Reachable world pool) (orderly : Orderly pool.log)
    (identified : Identified cfg pool)
    : (∀ row ∈ pool.world.db.limits.find cbBucket, BreakerExact platform cfg breaker pool row)
      ∧ (∀ one ∈ pool.progress, ∀ response, one.rest = .pure response →
          ((breakerUse platform cfg breaker one).reported.isSome
            ↔ (breakerUse platform cfg breaker one).compared)
          ∧ ∀ report ∈ (breakerUse platform cfg breaker one).reported,
              report.2 = true ↔ response.status = 401)
      ∧ ∀ index req response, pool.Answered index (.emailVerify req) response
          → response.status = 503 →
          ∃ earlier following now cb, ∃ row ∈ earlier.world.db.limits.find cbBucket,
            (deviceAuth platform cfg sessions).Reachable world earlier
            ∧ (deviceAuth platform cfg sessions).Performs earlier
                ⟨index, .store (.readCircuitBreaker cbBucket (breaker.windowSec * sec) now), cb⟩
                following
            ∧ (deviceAuth platform cfg sessions).Run following pool
            ∧ breaker.minFailures ≤ row.failures
            ∧ ⌈(breaker.minFailures : ℚ) / (2 * cfg.limits.verifiesPerIp)⌉₊
                ≤ (failingClients platform cfg breaker earlier row.windowStart).card := by
  have settled (one : Progress Op Op.Reply Request Response) (member : one ∈ pool.progress)
      (response : Response) (answered : one.rest = .pure response)
      : (breakerUse platform cfg breaker one).Settled response := by
    have obeys := reach.obeys (fun _ _ _ _ _ => trivial) (handle_settles configured) one member
    rw [answered] at obeys
    exact obeys
  refine ⟨fun row found => ?_, fun one member response answered => ?_, ?_⟩
  · exact reachable_breakerExact configured lasting short room fresh reach orderly identified found
  · obtain ⟨reports, fails, -⟩ := settled one member response answered
    exact ⟨reports, fails⟩
  intro index req response answered unavailable
  have found : pool.progress[index]?
      = some ⟨.emailVerify req, pool.history index, .pure response⟩ := by
    rw [Service.getElem?_progress, answered]
    rfl
  obtain ⟨-, -, opens⟩ := settled _ (List.mem_of_getElem? found) response rfl
  obtain ⟨now, cb, recorded, enough⟩ := opened_read (opens ⟨req, breakerUse_request _⟩ unavailable)
  obtain ⟨before, after, split⟩ := List.append_of_mem (Service.mem_history.mp recorded)
  obtain ⟨earlier, following, reachable, log, performs, run⟩ := reach.at_entry split
  have read : earlier.world.db.readCircuitBreaker cbBucket (breaker.windowSec * sec) now = cb :=
    (Prod.mk.inj (Option.some.inj performs.executes.1)).1
  have whole := run.head (.perform performs)
  have before_orderly : Orderly earlier.log :=
    List.Pairwise.sublist (Service.log_grows whole).sublist orderly
  have before_identified : Identified cfg earlier :=
    identified.imp_right (fun carries index req serves =>
      carries index req (Service.requestOf_run whole serves))
  cases stored : earlier.world.db.limits.find cbBucket with
  | none =>
      rw [← read] at enough
      simp [Database.readCircuitBreaker, stored] at enough
      omega
  | some row =>
      have failures : breaker.minFailures ≤ row.failures := by
        refine enough.trans ?_
        rw [← read]
        simp only [Database.readCircuitBreaker, stored]
        by_cases inside : row.windowStart > now - breaker.windowSec * sec
        · simp [Option.filter, inside]
        · simp [Option.filter, inside]
      have exact := reachable_breakerExact configured lasting short room fresh reachable before_orderly
        before_identified stored
      refine ⟨earlier, following, now, cb, row, stored, reachable, performs, run, failures, ?_⟩
      have bound : (breaker.minFailures : ℚ) ≤ 2 * cfg.limits.verifiesPerIp
          * (failingClients platform cfg breaker earlier row.windowStart).card :=
        mod_cast failures.trans exact.clients
      refine Nat.ceil_le.mpr ((div_le_iff₀' ?_).mpr bound)
      exact_mod_cast Nat.mul_pos two_pos room

end Reachable

section Played

open Sample

/-- One failure within ten minutes opens the breaker, and every client has an IP. -/
def breakerConfig : Config :=
  { config with
    breaker := some { minFailures := 1, ratio := 1 / 2, windowSec := 600 }
    getClientIp := fun _ => some "203.0.113.9"
    requireClientIp := true }

/-- A code is sent, a wrong one is tried, and the next verification is turned away. -/
def turnedAway : List (Move Request Outside) :=
  .arrive startRequest :: calls 0 0 9 ++ .arrive (verifyRequest "105833") :: calls 1000 1 7
    ++ .arrive (verifyRequest "482915") :: calls 2000 2 4

theorem breaker_needs_clients_played
    : ∃ (state earlier : State) (row : RateLimitRow),
        (deviceAuth Sample.platform breakerConfig memorySessions).Reachable empty state
        ∧ (deviceAuth Sample.platform breakerConfig memorySessions).Run earlier state
        ∧ earlier.world.db.limits.find cbBucket = some row
        ∧ 1 ≤ row.failures
        ∧ ⌈(1 : ℚ) / (2 * 20)⌉₊ ≤ (failingClients Sample.platform breakerConfig
            { minFailures := 1, ratio := 1 / 2, windowSec := 600 } earlier row.windowStart).card := by
  obtain ⟨state, played, shows_⟩ := (Option.any_eq_true ..).mp
    (show ((deviceAuth Sample.platform breakerConfig memorySessions).play
        (compute Sample.platform users) (fun _ _ => true) (.start empty) turnedAway).any
        (fun state => decide (Orderly state.log)
          && (state.answerOf 2).any (fun answer => answer.2.status = 503)) = true by decide +kernel)
  obtain ⟨orderly, turned⟩ := (Bool.and_eq_true ..).mp shows_
  obtain ⟨⟨request, response⟩, answer, unavailable⟩ := (Option.any_eq_true ..).mp turned
  have answered := Pool.answerOf_eq_some.mp answer
  have reach := Service.reachable_of_play (compute_sound Sample.platform users) played
  have served := congrArg (fun requests => requests[2]?)
    (Service.requests_play (compute_sound Sample.platform users) played)
  have verifies : request = verifyRequest "482915" := by
    simp only [List.getElem?_map] at served
    rw [show state.threads[2]? = _ from answered] at served
    exact Option.some.inj served
  subst verifies
  obtain ⟨earlier, following, now, cb, row, found, _, performs, run, failures, clients⟩ :=
    (breaker_needs_clients rfl (by norm_num) (by norm_num [hourSec]) (by decide) (by decide)
      (List.forall_mem_nil _) reach (of_decide_eq_true orderly) (.inl rfl)).2.2 2 _ response answered
      (of_decide_eq_true unavailable)
  refine ⟨state, earlier, row, reach, run.head (.perform performs), found, failures, ?_⟩
  exact_mod_cast clients

end Played

end WorkersAuth.DeviceAuth

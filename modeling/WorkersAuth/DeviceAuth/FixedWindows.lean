import WorkersAuth.Atomic.Ensures
import WorkersAuth.Counters.WindowRuns
import WorkersAuth.DeviceAuth.Deployment
import WorkersAuth.DeviceAuth.RateLimits

/-! The rate limits are exact.
Each bucket's row is a fixed-window counter, whatever happens to other buckets between its calls.
A refusal says when the window it fell into is over, to the second.
-/

namespace WorkersAuth

open Atomic Counters DeviceAuth

-----------------------------------------------------------------------------------------
-- Calls on one bucket
-----------------------------------------------------------------------------------------

/-- A call on a bucket and what it answers. A refused reservation is followed by a reading, which
the refusal's advice is computed from.
-/
def limitCall (policy : Policy) (db : Database) (bucket : String) (windowMs now : Millis)
    (limit : Nat)
    : Visit Millis × Database :=
  match policy with
  | .hits =>
      let (answered, after) := db.hitRateLimit bucket windowMs now
      (⟨now, ⟨answered.windowStart, answered.count⟩, true⟩, after)
  | .reservations =>
      match db.reserveRateLimit bucket windowMs now limit with
      | (some answered, after) => (⟨now, ⟨answered.windowStart, answered.count⟩, true⟩, after)
      | (none, after) =>
          let current := after.readRateLimit bucket windowMs now
          (⟨now, ⟨current.windowStart, current.count⟩, false⟩, after)

/-- The calls on a bucket that had no row, oldest first, at times that do not fall, and between
them any calls that count in other buckets or nowhere.
-/
inductive LimitRun (policy : Policy) (bucket : String) (windowMs : Millis) (limit : Nat)
    : List (Visit Millis) → Database → Prop
  | start {db} (fresh : db.window bucket = none) : LimitRun policy bucket windowMs limit [] db
  | other {log db after} (run : LimitRun policy bucket windowMs limit log db) (call : StoreCall)
      {reply : call.Reply} (ran : call.run db = some (reply, after))
      (elsewhere : call.countedBucket ≠ some bucket)
      : LimitRun policy bucket windowMs limit log after
  | call {log db} (run : LimitRun policy bucket windowMs limit log db) (now : Millis)
      (later : ∀ earlier ∈ log, earlier.time ≤ now)
      : LimitRun policy bucket windowMs limit
          (log ++ [(limitCall policy db bucket windowMs now limit).1])
          (limitCall policy db bucket windowMs now limit).2

section

variable {policy : Policy} {db : Database} {bucket : String} {windowMs now : Millis} {limit : Nat}
  {log : List (Visit Millis)}

/-- A hit leaves the window it answers. -/
theorem hitRateLimit_eq (db : Database) (bucket : String) (windowMs now : Millis)
    : (db.hitRateLimit bucket windowMs now).1
        = ⟨(Window.hit windowMs now (db.window bucket)).count,
            (Window.hit windowMs now (db.window bucket)).start⟩
      ∧ (db.hitRateLimit bucket windowMs now).2.window bucket
        = some (Window.hit windowMs now (db.window bucket)) := by
  have after_eq : (db.hitRateLimit bucket windowMs now).2.limits
      = (db.limits.upsertReturning ⟨bucket, now, 1, 0⟩ (fun _ => true)
          (Database.countOne windowMs now) (Database.countOne_bucket windowMs now)).2 := rfl
  rw [hitRateLimit_fst]
  simp only [Database.window, after_eq, Tables.Table.find_upsertReturning]
  cases found : db.limits.find bucket with
  | none => simp [Window.hit]
  | some row =>
      by_cases lapsed : row.windowStart ≤ now - windowMs
      · simp [Window.hit, Database.countOne, Database.lapsed, lapsed]
      · simp [Window.hit, Database.countOne, Database.lapsed, lapsed]

/-- A reading answers the open window, or an empty one. -/
theorem readRateLimit_eq (db : Database) (bucket : String) (windowMs now : Millis)
    : db.readRateLimit bucket windowMs now
      = (((db.window bucket).filter (fun window => window.start > now - windowMs)).map
          (fun window => (⟨window.count, window.start⟩ : WindowCount))).getD ⟨0, now⟩ := by
  simp only [Database.readRateLimit, Database.window]
  cases db.limits.find bucket with
  | none => rfl
  | some row =>
      by_cases inside : row.windowStart > now - windowMs
      · simp [Option.filter, inside]
      · simp [Option.filter, inside]

/-- A call on a bucket is a call on the window of its row. -/
theorem limitCall_eq (policy : Policy) (db : Database) (bucket : String) (windowMs now : Millis)
    (limit : Nat)
    : (limitCall policy db bucket windowMs now limit).1
        = policy.visit windowMs now limit (db.window bucket)
      ∧ (limitCall policy db bucket windowMs now limit).2.window bucket
        = some (policy.visit windowMs now limit (db.window bucket)).window := by
  cases policy with
  | hits =>
      obtain ⟨answer_eq, after_eq⟩ := hitRateLimit_eq db bucket windowMs now
      simp only [limitCall, Policy.visit, answer_eq, after_eq, and_self]
  | reservations =>
      obtain ⟨answer_eq, after_eq⟩ := reserveRateLimit_eq db bucket windowMs now limit
      simp only [limitCall, Policy.visit]
      rcases ran : db.reserveRateLimit bucket windowMs now limit with ⟨answered, after⟩
      rw [ran] at answer_eq after_eq
      cases taken : Window.reserve windowMs now limit (db.window bucket) with
      | some window =>
          simp only [taken, Option.map_some] at answer_eq
          subst answer_eq
          simpa [taken] using after_eq
      | none =>
          simp only [taken, Option.map_none, Option.none_or] at answer_eq after_eq
          subst answer_eq
          -- Only an open and full window refuses a reservation, and the reading finds it.
          cases stored : db.window bucket with
          | none => simp [stored, Window.reserve] at taken
          | some current =>
              have lasting : current.start > now - windowMs := by
                by_contra lapsed
                simp [stored, Window.reserve, not_lt.mp lapsed] at taken
              rw [stored] at after_eq
              simp [readRateLimit_eq, after_eq, Option.filter, lasting]

/-- A run of calls on a bucket is a run of its window, by induction on the run. -/
theorem LimitRun.visits (run : LimitRun policy bucket windowMs limit log db)
    : VisitRun policy windowMs limit log (db.window bucket) := by
  induction run with
  | start fresh => exact fresh ▸ .start
  | other _ call ran elsewhere ih => exact call.window_eq ran elsewhere ▸ ih
  | call _ now later ih =>
      obtain ⟨call_eq, after_eq⟩ := limitCall_eq policy _ bucket windowMs now limit
      rw [call_eq, after_eq]
      exact ih.visit later

-----------------------------------------------------------------------------------------
-- The advice
-----------------------------------------------------------------------------------------

/-- `retryAfter` is the least whole number of seconds after which a window is over. -/
theorem retryAfter_isLeast {start : Millis} (lasting : now - windowMs < start)
    : IsLeast {seconds : ℤ | 0 < seconds ∧ start ≤ now + 1000 * seconds - windowMs}
        (retryAfter start (windowMs / sec) now) := by
  have left : 0 < start + windowMs - now := by linarith
  have duration : start + windowMs / sec * sec - now = start + windowMs - now := by
    rw [div_mul_cancel₀ _ (by simp [sec])]
  have positive : 0 < ⌈(start + windowMs - now) / sec⌉ :=
    Int.ceil_pos.mpr (div_pos left (by norm_num [sec]))
  have advice : retryAfter start (windowMs / sec) now = ⌈(start + windowMs - now) / sec⌉ := by
    rw [retryAfter, wholeSeconds, duration]
    exact max_eq_right positive
  have elapsed_iff (seconds : ℤ) : start ≤ now + 1000 * seconds - windowMs
      ↔ ⌈(start + windowMs - now) / sec⌉ ≤ seconds := by
    rw [Int.ceil_le, div_le_iff₀ (by norm_num [sec]), sec]
    constructor <;> intro bound <;> linarith
  rw [advice]
  exact ⟨⟨positive, (elapsed_iff _).mpr le_rfl⟩, fun seconds reached => (elapsed_iff seconds).mp reached.2⟩

/-- The next call after a refused one is admitted from the advised second on, and not before. -/
theorem LimitRun.retry {call : Visit Millis}
    (run : LimitRun policy bucket windowMs limit (log ++ [call]) db) (room : 0 < limit)
    (refused : ¬policy.admits limit call)
    : IsLeast {seconds : ℤ | 0 < seconds ∧ policy.admits limit
          (limitCall policy db bucket windowMs (call.time + 1000 * seconds) limit).1}
        (retryAfter call.window.start (windowMs / sec) call.time) := by
  obtain ⟨stored, lasting, full⟩ := run.visits.refused room refused
  have admitted (seconds : ℤ)
      : policy.admits limit
            (limitCall policy db bucket windowMs (call.time + 1000 * seconds) limit).1
        ↔ call.window.start ≤ call.time + 1000 * seconds - windowMs := by
    rw [(limitCall_eq policy db bucket windowMs _ limit).1, stored, policy.admits_full room full]
  simp only [admitted]
  exact retryAfter_isLeast lasting

-----------------------------------------------------------------------------------------
-- The handlers
-----------------------------------------------------------------------------------------

section Handlers

variable {σ : Type} {platform : Platform} {sessions : Semantics SessionCall SessionCall.Reply σ}
  {start : World σ}

/-- `rateLimited` makes one hit and refuses exactly when it is not admitted, with its advice. -/
theorem rateLimited_ensures (bucket : String) (windowSec : ℚ) (limit : Nat) (scope : String)
    (now : Millis)
    : (rateLimited bucket windowSec limit scope now).Ensures (exec platform sessions) start
        (fun answer after =>
          let (call, db) := limitCall .hits start.db bucket (windowSec * sec) now limit
          after.db = db
          ∧ answer = if Policy.hits.admits limit call then none
              else some (retryResponse 429 "rate_limited"
                (retryAfter call.window.start windowSec now))) := by
  refine .perform ⟨_, ⟨_, start.sessions⟩, rfl, rfl⟩ ?_
  rintro ⟨count, windowStart⟩ after ⟨ran, -⟩
  have ran_eq : start.db.hitRateLimit bucket (windowSec * sec) now
      = (⟨count, windowStart⟩, after.db) := Option.some.inj ran
  have call_eq : limitCall .hits start.db bucket (windowSec * sec) now limit
      = (⟨now, ⟨windowStart, count⟩, true⟩, after.db) := by
    simp only [limitCall, ran_eq]
  simp only [call_eq, Policy.admits, decide_eq_true_eq]
  by_cases admitted : count ≤ limit
  · simp only [if_pos admitted]
    exact .answer ⟨rfl, rfl⟩
  · simp only [if_neg admitted]
    refine .perform ⟨(), after, trivial, rfl⟩ ?_
    rintro ⟨⟩ world ⟨-, rfl⟩
    exact .answer ⟨rfl, rfl⟩

/-- `POST /email/verify` refuses a reservation that is not granted, with the advice of the
reading that follows it.
-/
theorem reserveSlot_refused (cfg : Config) (req : HttpRequest) (email code : String) (now : Millis)
    (budget : Budget)
    (refused : ¬Policy.reservations.admits budget.maxFailures
      (limitCall .reservations start.db budget.failures (cfg.failureWindowSec * sec) now
        budget.maxFailures).1)
    : (reserveSlot platform cfg req email code now budget).Ensures (exec platform sessions) start
        (fun answer after =>
          let (call, db) := limitCall .reservations start.db budget.failures
            (cfg.failureWindowSec * sec) now budget.maxFailures
          after.db = db
          ∧ answer = retryResponse 429 "rate_limited"
              (retryAfter call.window.start cfg.failureWindowSec now)) := by
  refine .perform ⟨_, ⟨_, start.sessions⟩, rfl, rfl⟩ ?_
  rintro slot after ⟨ran, -⟩
  have ran_eq : start.db.reserveRateLimit budget.failures (cfg.failureWindowSec * sec) now
      budget.maxFailures = (slot, after.db) := Option.some.inj ran
  cases slot with
  | some slot => simp [limitCall, ran_eq, Policy.admits] at refused
  | none =>
      refine .perform ⟨(), after, trivial, rfl⟩ ?_
      rintro ⟨⟩ world ⟨-, rfl⟩
      refine .perform ⟨_, ⟨_, world.sessions⟩, rfl, rfl⟩ ?_
      rintro current last ⟨read, -⟩
      have read_eq : (world.db.readRateLimit budget.failures (cfg.failureWindowSec * sec) now,
          world.db) = (current, last.db) := Option.some.inj read
      obtain ⟨read_eq, same_db⟩ := Prod.mk.inj read_eq
      have call_eq : limitCall .reservations start.db budget.failures (cfg.failureWindowSec * sec)
          now budget.maxFailures
          = (⟨now, ⟨current.windowStart, current.count⟩, false⟩, last.db) := by
        simp only [limitCall]
        rw [ran_eq, ← same_db, ← read_eq]
      simp only [call_eq]
      exact .answer ⟨rfl, rfl⟩

end Handlers

-----------------------------------------------------------------------------------------
-- Exactness
-----------------------------------------------------------------------------------------

/-- The limiter of a bucket, after any calls. A returned count is the number of calls counted in
its window so far; windows move forward by one length at least; the first calls of each window
are the admitted ones; within one length at most twice the limit is admitted, whichever end of
the interval is left out; and after a refusal the next call is admitted from the advised second on.
-/
structure LimiterExact (policy : Policy) (bucket : String) (windowMs : Millis) (limit : Nat)
    (log : List (Visit Millis)) (db : Database)
    : Prop where
  counts : ∀ before call, before ++ [call] <+: log → call.counted →
    call.window.count = countedIn before call.window.start + 1
  forward : log.Pairwise (fun earlier later => earlier.window.start = later.window.start
    ∨ earlier.window.start + windowMs ≤ later.window.start)
  first : ∀ before call, before ++ [call] <+: log →
    (policy.admits limit call ↔ callsIn before call.window.start < limit)
  twice : ∀ a b, b ≤ a + windowMs →
    log.countP (fun call => policy.admits limit call && (a ≤ call.time && call.time < b)) ≤ 2 * limit
    ∧ log.countP (fun call => policy.admits limit call && (a < call.time && call.time ≤ b))
      ≤ 2 * limit
  retry : ∀ before call, log = before ++ [call] → ¬policy.admits limit call →
    IsLeast {seconds : ℤ | 0 < seconds ∧ policy.admits limit
        (limitCall policy db bucket windowMs (call.time + 1000 * seconds) limit).1}
      (retryAfter call.window.start (windowMs / sec) call.time)

/-- The limiter of every bucket is exact, in every run. -/
theorem limiter_exact (positive : 0 < windowMs) (room : 0 < limit)
    (run : LimitRun policy bucket windowMs limit log db)
    : LimiterExact policy bucket windowMs limit log db := by
  have exact := run.visits.exact positive room
  constructor
  case counts => exact fun before call leads counted => (exact.answers before call leads).1 counted
  case forward => exact exact.apart.imp (fun apart => apart.imp_right And.right)
  case first => exact fun before call leads => (exact.answers before call leads).2
  case twice =>
    intro a b short
    constructor
    · refine exact.admitted_le (fun time => a ≤ time && time < b) (fun first last inside later => ?_)
      simp only [Bool.and_eq_true, decide_eq_true_eq] at inside later
      linarith
    · refine exact.admitted_le (fun time => a < time && time ≤ b) (fun first last inside later => ?_)
      simp only [Bool.and_eq_true, decide_eq_true_eq] at inside later
      linarith
  case retry =>
    rintro before call rfl refused
    exact run.retry room refused

end

namespace Sample

/-- Two requests for a code, five seconds apart, with a cooldown of a minute. -/
def cooled : Visit Millis × Database :=
  limitCall .hits (limitCall .hits Database.empty "otp-cool:e" 60000 0 1).2 "otp-cool:e" 60000 5000 1

theorem limiter_exact_played
    : LimiterExact .hits "otp-cool:e" 60000 1
        [(limitCall .hits Database.empty "otp-cool:e" 60000 0 1).1, cooled.1] cooled.2 :=
  limiter_exact (by norm_num) (by decide)
    (.call (.call (.start rfl) 0 (by simp)) 5000 (by
      intro earlier member
      obtain rfl := List.mem_singleton.mp member
      decide +kernel))

end Sample

end WorkersAuth

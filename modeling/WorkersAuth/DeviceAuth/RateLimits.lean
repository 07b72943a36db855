import WorkersAuth.Counters.FixedWindow
import WorkersAuth.DeviceAuth.Frame

/-! Rate-limit rows as fixed-window counters.
A call reads and moves the row of one bucket; what it does to that row is an operation of a
fixed-window counter.
-/

namespace WorkersAuth

open Counters DeviceAuth

/-- The window a bucket's row holds. -/
def DeviceAuth.Database.window (db : Database) (bucket : String) : Option (Window Millis) :=
  (db.limits.find bucket).map (fun row => ⟨row.windowStart, row.count⟩)

/-- The bucket whose row a call can change. -/
def StoreCall.countedBucket : StoreCall → Option String
  | .hitRateLimit bucket .. => some bucket
  | .reserveRateLimit bucket .. => some bucket
  | .refundRateLimit bucket _ => some bucket
  | .hitCircuitBreaker bucket .. => some bucket
  | _ => none

/-- A call leaves the rows of all other buckets alone, by cases on the call. -/
theorem StoreCall.limit_eq (call : StoreCall) {reply : call.Reply} {db after : Database}
    {bucket : String} (ran : call.run db = some (reply, after))
    (other : call.countedBucket ≠ some bucket)
    : after.limits.find bucket = db.limits.find bucket := by
  have different {counted : String} (counts : call.countedBucket = some counted)
      : bucket ≠ counted := fun same => other (same ▸ counts)
  have upserted {counted : String} {windowStart : Millis} {count failures : Nat}
      {applies : RateLimitRow → Bool} {change : RateLimitRow → RateLimitRow}
      {keeps : ∀ row, (change row).bucket = row.bucket}
      (counts : call.countedBucket = some counted)
      : (db.limits.upsertReturning ⟨counted, windowStart, count, failures⟩ applies change
          keeps).2.find bucket = db.limits.find bucket := by
    simp [different counts]
  cases call
  case hitRateLimit =>
    obtain rfl := congrArg Prod.snd (Option.some.inj ran)
    exact upserted rfl
  case reserveRateLimit =>
    obtain rfl := congrArg Prod.snd (Option.some.inj ran)
    exact upserted rfl
  case hitCircuitBreaker =>
    obtain rfl := congrArg Prod.snd (Option.some.inj ran)
    exact upserted rfl
  case refundRateLimit counted windowStart =>
    obtain rfl := congrArg Prod.snd (Option.some.inj ran)
    simp only [Database.refundRateLimit, Tables.Table.find_updateWhere]
    cases found : db.limits.find bucket with
    | none => rfl
    | some row => simp [Tables.Table.key_of_find found, different rfl]
  all_goals rw [StoreCall.limits_eq ran (fun writes => writes)]

/-- A call leaves the windows of all other buckets alone. -/
theorem StoreCall.window_eq (call : StoreCall) {reply : call.Reply} {db after : Database}
    {bucket : String} (ran : call.run db = some (reply, after))
    (other : call.countedBucket ≠ some bucket)
    : after.window bucket = db.window bucket := by
  simp only [Database.window, StoreCall.limit_eq call ran other]

/-- A hit is counted in the window of its bucket's row, or starts the first one. -/
theorem hitRateLimit_fst (db : Database) (bucket : String) (windowMs now : Millis)
    : (db.hitRateLimit bucket windowMs now).1
      = match db.limits.find bucket with
        | none => ⟨1, now⟩
        | some row =>
            ⟨(Database.countOne windowMs now row).count,
              (Database.countOne windowMs now row).windowStart⟩ := by
  have reply_eq : (db.hitRateLimit bucket windowMs now).1
      = (fun row : Option RateLimitRow =>
          (⟨(row.map (·.count)).getD 1, (row.map (·.windowStart)).getD now⟩ : WindowCount))
        (db.limits.upsertReturning ⟨bucket, now, 1, 0⟩ (fun _ => true)
          (Database.countOne windowMs now) (Database.countOne_bucket windowMs now)).1 := rfl
  rw [reply_eq, Tables.Table.upsertReturning_fst]
  cases db.limits.find bucket <;> simp

/-- A hit answers from the row of its own bucket. -/
theorem hitRateLimit_congr {db after : Database} {bucket : String}
    (same : after.limits.find bucket = db.limits.find bucket) (windowMs now : Millis)
    : (after.hitRateLimit bucket windowMs now).1 = (db.hitRateLimit bucket windowMs now).1 := by
  rw [hitRateLimit_fst, hitRateLimit_fst, same]

/-- So does a reading. -/
theorem readRateLimit_congr {db after : Database} {bucket : String}
    (same : after.limits.find bucket = db.limits.find bucket) (windowMs now : Millis)
    : after.readRateLimit bucket windowMs now = db.readRateLimit bucket windowMs now := by
  simp only [Database.readRateLimit, same]

/-- Only the rows of these buckets differ, and only counters. -/
structure OnlyCounted (counted : String → Prop) (before after : Database) : Prop where
  codes : after.codes = before.codes
  devices : after.devices = before.devices
  guards : after.guards = before.guards
  limits : ∀ bucket, ¬counted bucket → after.limits.find bucket = before.limits.find bucket

theorem OnlyCounted.refl (counted : String → Prop) (db : Database) : OnlyCounted counted db db :=
  ⟨rfl, rfl, rfl, fun _ _ => rfl⟩

theorem OnlyCounted.mono {fewer more : String → Prop} {before after : Database}
    (only : OnlyCounted fewer before after) (implies : ∀ bucket, fewer bucket → more bucket)
    : OnlyCounted more before after :=
  { only with limits := fun bucket other => only.limits bucket (fun counts => other (implies _ counts)) }

theorem OnlyCounted.trans {counted : String → Prop} {first second third : Database}
    (front : OnlyCounted counted first second) (back : OnlyCounted counted second third)
    : OnlyCounted counted first third where
  codes := back.codes.trans front.codes
  devices := back.devices.trans front.devices
  guards := back.guards.trans front.guards
  limits bucket other := (back.limits bucket other).trans (front.limits bucket other)

/-- A hit counts in its own bucket only. -/
theorem onlyCounted_hit {counted : String → Prop} (db : Database) {bucket : String}
    (windowMs now : Millis) (counts : counted bucket)
    : OnlyCounted counted db (db.hitRateLimit bucket windowMs now).2 where
  codes := rfl
  devices := rfl
  guards := rfl
  limits _ free :=
    StoreCall.limit_eq (.hitRateLimit bucket windowMs now) rfl
      (fun same => free (Option.some.inj same ▸ counts))

/-- A reservation of a bucket is a reservation of its window, and answers it; the windows of
other buckets stay.
-/
theorem reserveRateLimit_eq (db : Database) (bucket : String) (windowMs now : Millis) (max : Nat)
    : let taken := Window.reserve windowMs now max (db.window bucket)
      (db.reserveRateLimit bucket windowMs now max).1
        = taken.map (fun window => ⟨window.count, window.start⟩)
      ∧ (db.reserveRateLimit bucket windowMs now max).2.window bucket
        = taken.or (db.window bucket) := by
  have reply_eq : (db.reserveRateLimit bucket windowMs now max).1
      = (db.limits.upsertReturning ⟨bucket, now, 1, 0⟩
          (fun row => Database.lapsed windowMs now row || row.count < max)
          (Database.countOne windowMs now) (Database.countOne_bucket windowMs now)).1.map
        (fun row => ⟨row.count, row.windowStart⟩) := rfl
  have after_eq : (db.reserveRateLimit bucket windowMs now max).2.limits
      = (db.limits.upsertReturning ⟨bucket, now, 1, 0⟩
          (fun row => Database.lapsed windowMs now row || row.count < max)
          (Database.countOne windowMs now) (Database.countOne_bucket windowMs now)).2 := rfl
  simp only [reply_eq, Database.window, after_eq, Tables.Table.upsertReturning_fst,
    Tables.Table.find_upsertReturning]
  cases found : db.limits.find bucket with
  | none => simp [Window.reserve]
  | some row =>
      simp only [Window.reserve, Option.all_some, Option.map_some, Option.getD_some, true_and,
        Database.lapsed, Bool.or_eq_true, decide_eq_true_eq, Database.countOne]
      by_cases lapsed : row.windowStart ≤ now - windowMs
      · simp [lapsed]
      · by_cases room : row.count < max <;> simp [lapsed, room]

/-- A refused reservation changes no window. -/
theorem reserveRateLimit_refused {db after : Database} {bucket : String} {windowMs now : Millis}
    {max : Nat} (ran : db.reserveRateLimit bucket windowMs now max = (none, after))
    (other : String)
    : after.window other = db.window other := by
  obtain ⟨reply_eq, after_eq⟩ := reserveRateLimit_eq db bucket windowMs now max
  rw [ran] at reply_eq after_eq
  by_cases same : other = bucket
  · rw [same, after_eq, Option.map_eq_none_iff.mp reply_eq.symm, Option.none_or]
  · exact StoreCall.window_eq (.reserveRateLimit bucket windowMs now max)
      (congrArg some ran) (by simpa [StoreCall.countedBucket] using Ne.symm same)

/-- A refund of a bucket is a refund of its window. -/
theorem refundRateLimit_eq (db : Database) (bucket : String) (windowStart : Millis)
    : (db.refundRateLimit bucket windowStart).window bucket
      = (db.window bucket).map (Window.refund windowStart) := by
  simp only [Database.window, Database.refundRateLimit, Tables.Table.find_updateWhere]
  cases found : db.limits.find bucket with
  | none => rfl
  | some row =>
      simp only [Option.map_some, Tables.Table.key_of_find found, Window.refund]
      by_cases same : row.windowStart = windowStart ∧ 0 < row.count
      · simp [same]
      · simp only [same, if_false]
        rw [if_neg (by simpa using fun first => Nat.eq_zero_of_not_pos (same ⟨first, ·⟩))]

end WorkersAuth

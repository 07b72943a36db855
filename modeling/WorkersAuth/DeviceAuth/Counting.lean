import WorkersAuth.DeviceAuth.Footprint
import WorkersAuth.DeviceAuth.RateLimits

/-! Which buckets the parts of a request count in.
Every limit and the breaker are rows of one table. A part of a request is described by the names of
the buckets it may count in; whatever else it calls changes none of these rows.
-/

namespace WorkersAuth.DeviceAuth

open Atomic

variable {platform : Platform} {cfg : Config} {names : String → Prop}

/-- A call that counts in no bucket but those with these names. -/
def countsIn (names : String → Prop) : Op → Prop
  | .store call => ∀ bucket, call.countedBucket = some bucket → names bucket
  | _ => True

/-- A call that counts in no bucket. -/
theorem countsIn_of_uncounted {call : StoreCall} (uncounted : call.countedBucket = none)
    : countsIn names (.store call) := by
  intro bucket counts
  cases uncounted.symm.trans counts

/-- A call that counts in one bucket. -/
theorem countsIn_of_counted {call : StoreCall} {bucket : String} (counted : call.countedBucket = some bucket)
    (named : names bucket)
    : countsIn names (.store call) := by
  intro other counts
  cases counted.symm.trans counts
  exact named

/-- Incidental calls count in no bucket. -/
theorem countsIn_incidental {op : Op} (incidental : op.Incidental) : countsIn names op := by
  rcases op with call | call | call
  · cases call <;> first | exact incidental.elim | exact countsIn_of_uncounted rfl
  · trivial
  · trivial

/-- An incidental part of a request counts in no bucket. -/
theorem within_incidental {α : Type} {part : Handler α} (within : part.Within Op.Incidental)
    : part.Within (countsIn names) :=
  within.mono (fun _ => countsIn_incidental)

/-- The limit of a bucket counts in that bucket. -/
theorem rateLimited_counts {bucket scope : String} {windowSec : ℚ} {limit : Nat} {now : Millis}
    (named : names bucket)
    : (rateLimited bucket windowSec limit scope now).Within (countsIn names) :=
  rateLimited_within (fun _ => countsIn_incidental) (countsIn_of_counted rfl named)

/-- The limit of the client's IP counts in a bucket of that IP. -/
theorem ipLimited_counts {req : HttpRequest} {action scope : String} {limit : Nat} {now : Millis}
    (named : ∀ ip, names (ipBucket platform action ip))
    : (ipLimited platform cfg req action limit scope now).Within (countsIn names) := by
  unfold ipLimited
  split
  · trivial
  · exact rateLimited_counts (named _)

/-- The breaker is hit in its own bucket. -/
theorem checked_counts {now : Millis} {failed : Bool} (named : names cbBucket)
    : (checked cfg now failed).Within (countsIn names) :=
  checked_within cfg _ (fun _ => countsIn_of_counted rfl named)

theorem invalid_counts {email reason : String} {now : Millis} (named : names cbBucket)
    : (invalid platform cfg email now reason).Within (countsIn names) :=
  .perform trivial (fun _ => (checked_counts named).bind (fun _ => trivial))

/-- Once the code is accepted, nothing is counted any more. -/
theorem verified_counts {op : Op} (verified : verifiedCalls op) : countsIn names op := by
  rcases op with call | call | call
  · cases call <;> first | exact verified.elim | exact countsIn_of_uncounted rfl
  · trivial
  · trivial

/-- A sign-in counts in no bucket. -/
theorem signIn_counts {op : Op} (signs : signInCalls op) : countsIn names op := by
  rcases op with call | call | call
  · cases call <;> first | exact signs.elim | exact countsIn_of_uncounted rfl
  · trivial
  · trivial

/-- Setting a PIN counts in no bucket. -/
theorem setPin_counts {op : Op} (sets : setPinCalls op) : countsIn names op := by
  rcases op with call | call | call
  · cases call <;> first | exact sets.elim | exact countsIn_of_uncounted rfl
  · trivial
  · trivial

/-- The managing routes count in no bucket. -/
theorem manage_counts {op : Op} (manages : manageCalls op) : countsIn names op := by
  rcases op with call | call | call
  · cases call <;> first | exact manages.elim | exact countsIn_of_uncounted rfl
  · trivial
  · trivial

/-- From the reading of a budget on, a request for a code counts in that budget's buckets. -/
theorem quotas_count {email : String} {now : Millis} {budget : Budget}
    (cooldown : names ("otp-cool:" ++ budget.send)) (hourly : names ("otp-email:" ++ budget.send))
    : Program.Within (countsIn names) (do
        let failures ← store.readRateLimit budget.failures (cfg.failureWindowSec * sec) now
        if failures.count ≥ budget.maxFailures then
          host.onEvent (.rateLimited (budget.scope ++ "_failures"))
          return retryResponse 429 "rate_limited"
            (retryAfter failures.windowStart cfg.failureWindowSec now)
        if let some cooled ← rateLimited ("otp-cool:" ++ budget.send) cfg.limits.cooldownSec 1
            (budget.scope ++ "_cooldown") now then
          return cooled
        if let some capped ← rateLimited ("otp-email:" ++ budget.send) hourSec cfg.limits.perEmail
            (budget.scope ++ "_hourly") now then
          return capped
        issueCode platform cfg email now : Handler Response) := by
  refine .perform (countsIn_of_uncounted rfl) (fun failures => ?_)
  split
  · exact .perform trivial (fun _ => trivial)
  refine (rateLimited_counts cooldown).bind (fun cooled => ?_)
  split
  · trivial
  refine (rateLimited_counts hourly).bind (fun capped => ?_)
  split
  · trivial
  refine .perform trivial (fun code => .perform (countsIn_of_uncounted rfl) (fun _ => ?_))
  exact .perform trivial (fun _ => .perform trivial (fun _ => trivial))

/-- From the slot on, a verification counts in its budget's failures and in the breaker. -/
theorem reserveSlot_counts {req : HttpRequest} {email code : String} {now : Millis} {budget : Budget}
    (failures : names budget.failures) (breaker : names cbBucket)
    : (reserveSlot platform cfg req email code now budget).Within (countsIn names) := by
  refine .perform (countsIn_of_counted rfl failures) (fun slot => ?_)
  split
  · exact .perform trivial (fun _ => .perform (countsIn_of_uncounted rfl) (fun _ => trivial))
  unfold checkCode
  refine .perform (countsIn_of_uncounted rfl) (fun reserved => ?_)
  split
  · exact .perform (countsIn_of_counted rfl failures) (fun _ => .perform trivial (fun _ => trivial))
  split
  · exact invalid_counts breaker
  split
  · exact invalid_counts breaker
  refine .perform (countsIn_of_uncounted rfl) (fun consumed => ?_)
  split
  · exact invalid_counts breaker
  refine .perform trivial (fun resolved => ?_)
  split
  · exact invalid_counts breaker
  · refine .perform (countsIn_of_counted rfl failures) (fun _ => (checked_counts breaker).bind (fun _ => ?_))
    exact (emailVerified_within ..).mono (fun _ => verified_counts)

/-- `POST /pin/login` counts in the bucket of its client's IP. -/
theorem pinLogin_counts (req : HttpRequest) (named : ∀ ip, names (ipBucket platform "pin-login" ip))
    : (pinLogin platform cfg req).Within (countsIn names) := by
  refine (within_incidental (gate_incidental ..)).bind (fun gated => ?_)
  split
  · trivial
  split
  · trivial
  split
  case h_2 => trivial
  refine (within_incidental (botRefused_incidental ..)).bind (fun bot => ?_)
  split
  · trivial
  refine .perform trivial (fun now => (ipLimited_counts named).bind (fun hit => ?_))
  split
  · trivial
  refine (within_incidental (readDevice_incidental ..)).bind (fun device => ?_)
  split
  · exact .perform trivial (fun _ => trivial)
  refine .perform (countsIn_of_uncounted rfl) (fun credential => ?_)
  split
  · exact .perform trivial (fun _ => trivial)
  refine .perform (countsIn_of_uncounted rfl) (fun granted => ?_)
  split
  · exact .perform trivial (fun _ => trivial)
  refine (pinVerify_within platform (fun _ => countsIn_incidental) (fun _ _ _ _ => trivial)).bind
    (fun verified => ?_)
  split
  · trivial
  · refine .perform trivial (fun _ => ?_)
    split
    · exact .perform (countsIn_of_uncounted rfl) (fun _ => .perform trivial (fun _ => trivial))
    · trivial
  · exact .perform (countsIn_of_uncounted rfl) (fun _ =>
      (signIn_within ..).mono (fun _ => signIn_counts))

end WorkersAuth.DeviceAuth

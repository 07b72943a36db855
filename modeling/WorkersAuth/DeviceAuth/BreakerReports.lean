import WorkersAuth.DeviceAuth.BucketIsolation

/-! What a request does about the circuit breaker.
A verification reports to the breaker at most once, after it has compared a live code, and only after
the limit of its client's IP has let it pass. No other route reads the breaker or reports to it.
-/

namespace WorkersAuth.DeviceAuth

open Atomic

variable (platform : Platform) (cfg : Config) (breaker : CircuitBreaker)

-----------------------------------------------------------------------------------------
-- What a verification does about the breaker
-----------------------------------------------------------------------------------------

/-- The bucket that limits the verifications of a client. -/
def verifyBucket (key : String) : String := "otp-verify" ++ ":ip:" ++ key

theorem verifyBucket_injective : Function.Injective verifyBucket :=
  fun _ _ same => (String.append_right_inj _).mp same

theorem cbBucket_ne_verifyBucket (key : String) : cbBucket ≠ verifyBucket key := by
  simp [cbBucket, verifyBucket, ← String.toList_inj]

/-- The rate-limit key of the client that asks for a verification, if it has an IP. -/
def Request.verifyClient : Request → Option String
  | .emailVerify req => ((cfg.getClientIp req).filter (· ≠ "")).map (ipRateLimitKey platform)
  | _ => none

/-- When a request was let pass by the limit of its client's IP, whether it found the breaker's
failures at their minimum, whether it compared a live code, and when it reported to the breaker and
whether as a failure.
-/
structure BreakerUse where
  request : Request
  passed : Option Millis := none
  opened : Bool := false
  compared : Bool := false
  reported : Option (Millis × Bool) := none

/-- What one more call adds to it. -/
def BreakerUse.next (use : BreakerUse) : (op : Op) → op.Reply → BreakerUse
  | .store (.hitRateLimit bucket _ now), answered =>
      if (use.request.verifyClient platform cfg).map verifyBucket = some bucket
          ∧ answered.count ≤ cfg.limits.verifiesPerIp then
        { use with passed := some now }
      else
        use
  | .store (.readCircuitBreaker bucket windowMs _), cb =>
      if bucket = cbBucket ∧ windowMs = breaker.windowSec * sec
          ∧ breaker.minFailures ≤ cb.failures then
        { use with opened := true }
      else
        use
  | .store (.reserveEmailCodeAttempt ..), reserved =>
      { use with compared := use.compared || reserved.isSome }
  | .store (.hitCircuitBreaker bucket _ now failed), _ =>
      if bucket = cbBucket then { use with reported := some (now, failed) } else use
  | _, _ => use

/-- The buckets that concern neither the breaker nor the limit of verifications. -/
def Elsewhere (bucket : String) : Prop := bucket ≠ cbBucket ∧ ∀ key, bucket ≠ verifyBucket key

/-- The use of a verification that has not compared a code yet. -/
structure BreakerUse.Fresh (req : HttpRequest) (use : BreakerUse) : Prop where
  verifies : use.request = .emailVerify req
  unreported : use.reported = none
  uncompared : use.compared = false

/-- A verification was let pass by the limit of its client at this time, or has and needs no client. -/
def BreakerUse.PassedAt (req : HttpRequest) (now : Millis) (use : BreakerUse) : Prop :=
  match (cfg.getClientIp req).filter (· ≠ "") with
  | none => cfg.requireClientIp = false
  | some _ => use.passed = some now

/-- The protocol about the breaker: the limit of the request's own client is hit once, before any
report, and one report is made, at the time at which the client was let pass or without a client.
-/
def breakerMonitor : Monitor Op Op.Reply BreakerUse where
  allows use op :=
    countsIn Elsewhere op
    ∨ (∃ key now, op = .store (.hitRateLimit (verifyBucket key) (hourSec * sec) now)
        ∧ use.request.verifyClient platform cfg = some key
        ∧ use.passed = none ∧ use.reported = none)
    ∨ (∃ now failed req,
        op = .store (.hitCircuitBreaker cbBucket (breaker.windowSec * sec) now failed)
        ∧ use.reported = none ∧ use.request = .emailVerify req ∧ use.PassedAt cfg req now)
  next := BreakerUse.next platform cfg breaker

/-- Once it has answered, a verification has reported exactly when it compared a live code, as a
failure exactly when it answers 401; and it answers 503 only after finding the breaker's failures at
their minimum.
-/
def BreakerUse.Settled (use : BreakerUse) (response : Response) : Prop :=
  (use.reported.isSome ↔ use.compared)
  ∧ (∀ report ∈ use.reported, report.2 = true ↔ response.status = 401)
  ∧ ((∃ req, use.request = .emailVerify req) → response.status = 503 → use.opened)

/-- A call that counts elsewhere and neither reads the breaker nor reserves an attempt. -/
def silent : Op → Prop
  | .store (.readCircuitBreaker ..) => False
  | .store (.reserveEmailCodeAttempt ..) => False
  | op => countsIn Elsewhere op

variable {platform cfg breaker}

/-- Silent calls count elsewhere. -/
theorem countsIn_of_silent {op : Op} (quiet : silent op) : countsIn Elsewhere op := by
  rcases op with call | call | call
  · cases call <;> first | exact quiet.elim | exact quiet
  · trivial
  · trivial

/-- A silent call adds nothing, by cases on the call. -/
theorem next_silent (use : BreakerUse) {op : Op} (quiet : silent op) (reply : op.Reply)
    : use.next platform cfg breaker op reply = use := by
  have counts := countsIn_of_silent quiet
  rcases op with call | call | call
  · cases call with
    | hitRateLimit bucket windowMs now =>
        refine if_neg ?_
        rintro ⟨own, -⟩
        obtain ⟨key, -, same⟩ := Option.map_eq_some_iff.mp own
        exact (counts bucket rfl).2 key same.symm
    | hitCircuitBreaker bucket windowMs now failed => exact if_neg (counts bucket rfl).1
    | readCircuitBreaker | reserveEmailCodeAttempt => exact quiet.elim
    | _ => rfl
  · rfl
  · rfl

/-- A call that counts elsewhere moves neither the pass nor the report. -/
theorem next_elsewhere (use : BreakerUse) {op : Op} (counts : countsIn Elsewhere op) (reply : op.Reply)
    : (use.next platform cfg breaker op reply).request = use.request
      ∧ (use.next platform cfg breaker op reply).passed = use.passed
      ∧ (use.next platform cfg breaker op reply).reported = use.reported := by
  by_cases quiet : silent op
  · rw [next_silent use quiet]
    exact ⟨rfl, rfl, rfl⟩
  · rcases op with call | call | call
    · cases call with
      | readCircuitBreaker bucket windowMs now =>
          simp only [BreakerUse.next]
          split <;> exact ⟨rfl, rfl, rfl⟩
      | reserveEmailCodeAttempt => exact ⟨rfl, rfl, rfl⟩
      | _ => exact absurd counts quiet
    · exact absurd trivial quiet
    · exact absurd trivial quiet

/-- The monitor does not notice silent calls. -/
theorem breakerMonitor_ignores (use : BreakerUse)
    : (breakerMonitor platform cfg breaker).Ignores use silent :=
  fun _ quiet => ⟨.inl (countsIn_of_silent quiet), next_silent use quiet⟩

/-- Incidental calls are silent. -/
theorem incidental_silent {op : Op} (incidental : op.Incidental) : silent op := by
  rcases op with call | call | call
  · cases call <;> first | exact incidental.elim | exact countsIn_of_uncounted rfl
  · trivial
  · trivial

/-- Once the code is accepted, all calls are silent. -/
theorem verified_silent {op : Op} (verified : verifiedCalls op) : silent op := by
  rcases op with call | call | call
  · cases call <;> first | exact verified.elim | exact countsIn_of_uncounted rfl
  · trivial
  · trivial

-----------------------------------------------------------------------------------------
-- The other buckets
-----------------------------------------------------------------------------------------

/-- The buckets of a subject concern neither the breaker nor the limit of verifications. -/
theorem subject_elsewhere {subject bucket : String} (member : bucket ∈ subjectBuckets subject)
    : Elsewhere bucket := by
  simp only [subjectBuckets, List.mem_cons, List.not_mem_nil, or_false] at member
  constructor
  · rintro rfl
    rcases member with same | same | same <;> simp [cbBucket, ← String.toList_inj] at same
  · rintro key rfl
    rcases member with same | same | same <;> simp [verifyBucket, ← String.toList_inj] at same

variable (cfg) in
/-- Nor do those of a budget. -/
theorem budget_elsewhere (emailKey : String) (device : Option DeviceRecord) {bucket : String}
    (member : bucket ∈ (budgetFor cfg emailKey device).buckets)
    : Elsewhere bucket := by
  rw [budgetFor_buckets] at member
  exact subject_elsewhere member

/-- Nor those of the limits of other actions. -/
theorem ipBucket_elsewhere {action : String} (known : action ∈ ["otp-start", "pin-login"])
    (ip : String)
    : Elsewhere (ipBucket platform action ip) := by
  simp only [List.mem_cons, List.not_mem_nil, or_false] at known
  constructor
  · rcases known with rfl | rfl <;> simp [ipBucket, cbBucket, ← String.toList_inj]
  · intro key
    rcases known with rfl | rfl <;> simp [ipBucket, verifyBucket, ← String.toList_inj]

/-- `POST /email/start` counts elsewhere. -/
theorem emailStart_elsewhere (req : HttpRequest)
    : (emailStart platform cfg req).Within (countsIn Elsewhere) := by
  unfold emailStart
  refine (within_incidental (gate_incidental ..)).bind (fun gated => ?_)
  split
  · trivial
  split
  · trivial
  split
  case h_2 => trivial
  next email address =>
  refine (within_incidental (botRefused_incidental ..)).bind (fun bot => ?_)
  split
  · trivial
  refine .perform trivial (fun now => ?_)
  refine (ipLimited_counts (ipBucket_elsewhere (by simp))).bind (fun hit => ?_)
  split
  · trivial
  refine (within_incidental (deviceOfAddress_incidental ..)).bind (fun device => ?_)
  have elsewhere {bucket : String}
      (member : bucket ∈ (budgetFor cfg (sha256Hex platform email) device).buckets)
      : Elsewhere bucket := budget_elsewhere cfg _ device member
  exact quotas_count (elsewhere (by simp [Budget.buckets])) (elsewhere (by simp [Budget.buckets]))

-----------------------------------------------------------------------------------------
-- The protocol
-----------------------------------------------------------------------------------------

section Rules

variable {α β : Type} {use : BreakerUse} {post : BreakerUse → α → Prop}

/-- A silent call, then the rest. -/
theorem perform_silent {op : Op} {rest : op.Reply → Handler α} (quiet : silent op)
    (later : ∀ reply, (rest reply).Obeys (breakerMonitor platform cfg breaker) post use)
    : ((Program.perform op : Handler op.Reply) >>= rest).Obeys
        (breakerMonitor platform cfg breaker) post use := by
  obtain ⟨allowed, unchanged⟩ := breakerMonitor_ignores use op quiet
  exact .perform allowed (fun reply _ => (unchanged reply).symm ▸ later reply)

/-- A silent part leaves the use as it is, whatever is known of its answer. -/
theorem silent_obeys {part : Handler α} {good : α → Prop} (within : part.Within silent)
    (gives : part.Gives good)
    : part.Obeys (breakerMonitor platform cfg breaker)
        (fun after answer => after = use ∧ good answer) use := by
  refine within.obeys_gives gives (· = use) ?_ rfl
  rintro _ op rfl quiet
  exact breakerMonitor_ignores _ op quiet

/-- A silent part, then the rest. -/
theorem obeys_silent {part : Handler β} {rest : β → Handler α} {good : β → Prop}
    (within : part.Within silent) (gives : part.Gives good)
    (later : ∀ answer, good answer
      → (rest answer).Obeys (breakerMonitor platform cfg breaker) post use)
    : (part >>= rest).Obeys (breakerMonitor platform cfg breaker) post use := by
  refine (silent_obeys within gives).bind ?_
  rintro _ answer ⟨rfl, known⟩
  exact later answer known

/-- One report to the breaker. -/
theorem checked_reports (configured : cfg.breaker = some breaker) {now : Millis} {failed : Bool}
    {req : HttpRequest} (unreported : use.reported = none) (verifies : use.request = .emailVerify req)
    (passed : use.PassedAt cfg req now)
    : (checked cfg now failed).Obeys (breakerMonitor platform cfg breaker)
        (fun after _ => after = { use with reported := some (now, failed) }) use := by
  unfold checked
  rw [configured]
  exact .perform (.inr (.inr ⟨now, failed, req, rfl, unreported, verifies, passed⟩))
    (fun _ _ => .answer (by simp [breakerMonitor, BreakerUse.next]))

end Rules

/-- A response that is neither a refused code nor an open breaker. -/
def Plain (response : Response) : Prop := response.status ≠ 401 ∧ response.status ≠ 503

/-- The gate refuses with 403. -/
theorem gate_plain (req : HttpRequest)
    : (gate platform cfg req).Gives (fun gated => ∀ res, gated = .refused res → Plain res) := by
  unfold gate
  split
  · exact Program.gives_bind (by simp)
  · refine Program.gives_bind (fun current => ?_)
    split <;> simp [Plain, Response.error]

/-- So does the bot check. -/
theorem botRefused_plain (action : BotCheckAction)
    : (botRefused cfg action).Gives (∀ res ∈ ·, Plain res) := by
  unfold botRefused
  split
  · simp
  · refine Program.gives_bind (fun passed => ?_)
    split <;> simp [Plain, Response.error]

/-- An accepted code is answered 200 or not at all. -/
theorem emailVerified_plain (req : HttpRequest) (resolved : AuthUser) (email : String) (now : Millis)
    (trustDevice : Bool) (label : Option String)
    : (emailVerified platform cfg req resolved email now trustDevice label).Gives Plain := by
  unfold emailVerified
  refine Program.gives_bind (fun _ => Program.gives_bind (fun before => ?_))
  refine Program.gives_bind (fun _ => Program.gives_bind (fun trusted => ?_))
  refine Program.gives_bind (fun minted => ?_)
  split
  · simp [Plain, Response.uncaught, Response.error]
  · exact Program.gives_bind (fun pinSet => by simp [Plain, okResponse])

section Verification

variable {req : HttpRequest} {email code : String} {now : Millis} {use : BreakerUse}

variable (platform email) in
/-- A refused code is reported as a failure. -/
theorem invalid_settles (configured : cfg.breaker = some breaker) (reason : String)
    (unreported : use.reported = none) (compared : use.compared = true)
    (verifies : use.request = .emailVerify req) (passed : use.PassedAt cfg req now)
    : (invalid platform cfg email now reason).Obeys (breakerMonitor platform cfg breaker)
        (BreakerUse.Settled) use := by
  refine perform_silent trivial (fun _ => ?_)
  refine (checked_reports configured unreported verifies passed).bind ?_
  rintro _ _ rfl
  exact .answer (by simp [BreakerUse.Settled, compared, Response.error])

/-- From the reserved slot on, a verification settles with the breaker, by cases on what it finds. -/
theorem checkCode_settles (configured : cfg.breaker = some breaker) {budget : Budget}
    {slot : WindowCount} {trustDevice : Bool} {label : Option String}
    (failures : Elsewhere budget.failures) (fresh : use.Fresh req) (passed : use.PassedAt cfg req now)
    : (checkCode platform cfg req email code now budget slot trustDevice label).Obeys
        (breakerMonitor platform cfg breaker) BreakerUse.Settled use := by
  obtain ⟨verifies, unreported, uncompared⟩ := fresh
  unfold checkCode
  refine .perform (.inl (countsIn_of_uncounted rfl)) (fun reserved _ => ?_)
  cases reserved with
  | none =>
      refine perform_silent (countsIn_of_counted rfl failures) (fun _ => ?_)
      refine perform_silent trivial (fun _ => .answer ?_)
      simp [BreakerUse.Settled, breakerMonitor, BreakerUse.next, unreported, uncompared,
        Response.error]
  | some reserved =>
      have settles (reason : String) := @invalid_settles platform cfg breaker req email now
        { use with compared := true } configured reason unreported rfl verifies passed
      have next_eq : (breakerMonitor platform cfg breaker).next use
          (.store (.reserveEmailCodeAttempt email now cfg.codeMaxAttempts)) (some reserved)
          = { use with compared := true } := by
        simp [breakerMonitor, BreakerUse.next]
      rw [next_eq]
      dsimp only
      split
      · exact settles _
      split
      · exact settles _
      refine perform_silent (countsIn_of_uncounted rfl) (fun consumed => ?_)
      split
      · exact settles _
      refine perform_silent trivial (fun resolved => ?_)
      split
      · exact settles _
      refine perform_silent (countsIn_of_counted rfl failures) (fun _ => ?_)
      refine Program.Obeys.bind (@checked_reports platform cfg breaker { use with compared := true }
        configured now false req unreported verifies passed) ?_
      rintro _ _ rfl
      refine (silent_obeys ((emailVerified_within ..).mono (fun _ => verified_silent))
        (@emailVerified_plain platform cfg req _ email now trustDevice label)).mono ?_
      rintro _ response ⟨rfl, refuses, available⟩
      simp [BreakerUse.Settled, refuses, available]

/-- The limit of the client's IP refuses a verification or lets it pass. -/
theorem ipLimited_passes {scope : String}
    : (ipLimited platform cfg req "otp-verify" cfg.limits.verifiesPerIp scope now).Obeys
        (breakerMonitor platform cfg breaker)
        (fun use answer => use.Fresh req ∧ (∀ response ∈ answer, Plain response)
          ∧ (answer = none → use.PassedAt cfg req now))
        { request := .emailVerify req } := by
  unfold ipLimited
  cases client : (cfg.getClientIp req).filter (· ≠ "") with
  | none =>
      refine .answer ⟨⟨rfl, rfl, rfl⟩, ?_, ?_⟩
      · split <;> simp [Plain, Response.error]
      · intro passes
        rw [BreakerUse.PassedAt, client]
        by_contra required
        simp [required] at passes
  | some ip =>
      have key : Request.verifyClient platform cfg (.emailVerify req)
          = some (ipRateLimitKey platform ip) := by
        rw [Request.verifyClient, client, Option.map_some]
      refine .perform (.inr (.inl ⟨_, now, rfl, key, rfl, rfl⟩)) (fun answered _ => ?_)
      have next_eq : (breakerMonitor platform cfg breaker).next { request := .emailVerify req }
          (.store (.hitRateLimit (ipBucket platform "otp-verify" ip) (hourSec * sec) now)) answered
          = if answered.count ≤ cfg.limits.verifiesPerIp then
              { request := .emailVerify req, passed := some now }
            else
              { request := .emailVerify req } := by
        simp only [breakerMonitor, BreakerUse.next, key, Option.map_some]
        exact if_congr (and_iff_right rfl) rfl rfl
      rw [next_eq]
      dsimp only
      by_cases within : answered.count ≤ cfg.limits.verifiesPerIp
      · rw [if_pos within, if_pos within]
        exact .answer ⟨⟨rfl, rfl, rfl⟩, by simp, fun _ => by rw [BreakerUse.PassedAt, client]⟩
      · rw [if_neg within, if_neg within]
        exact perform_silent trivial
          (fun _ => .answer ⟨⟨rfl, rfl, rfl⟩, by simp [Plain, retryResponse], by simp⟩)

/-- The breaker refuses a verification only when its failures are at their minimum. -/
theorem breakerRefused_opened (configured : cfg.breaker = some breaker) (fresh : use.Fresh req)
    (passed : use.PassedAt cfg req now)
    : (breakerRefused cfg now).Obeys (breakerMonitor platform cfg breaker)
        (fun use answer => use.Fresh req ∧ use.PassedAt cfg req now
          ∧ ∀ response ∈ answer, use.opened = true) use := by
  unfold breakerRefused
  rw [configured]
  refine .perform (.inl (countsIn_of_uncounted rfl)) (fun cb _ => ?_)
  have next_eq : (breakerMonitor platform cfg breaker).next use
      (.store (.readCircuitBreaker cbBucket (breaker.windowSec * sec) now)) cb
      = if breaker.minFailures ≤ cb.failures then { use with opened := true } else use :=
    if_congr ⟨fun all => all.2.2, fun enough => ⟨rfl, rfl, enough⟩⟩ rfl rfl
  rw [next_eq]
  by_cases enough : breaker.minFailures ≤ cb.failures
  · rw [if_pos enough]
    have after : ({ use with opened := true } : BreakerUse).Fresh req := { fresh with }
    split
    · exact perform_silent trivial (fun _ => .answer ⟨after, passed, fun _ _ => rfl⟩)
    · exact .answer ⟨after, passed, by simp⟩
  · rw [if_neg enough, if_neg (fun opens => enough opens.1)]
    exact .answer ⟨fresh, passed, by simp⟩

/-- `POST /email/verify` settles with the breaker. -/
theorem emailVerify_settles (configured : cfg.breaker = some breaker) (req : HttpRequest)
    : (emailVerify platform cfg req).Obeys (breakerMonitor platform cfg breaker) BreakerUse.Settled
        { request := .emailVerify req } := by
  have plain {use : BreakerUse} {response : Response} (fresh : use.Fresh req) (plain : Plain response)
      : use.Settled response := by
    simp [BreakerUse.Settled, fresh.unreported, fresh.uncompared, plain.2]
  have initial : ({ request := .emailVerify req } : BreakerUse).Fresh req := ⟨rfl, rfl, rfl⟩
  have incidental {α : Type} {part : Handler α} (within : part.Within Op.Incidental)
      : part.Within silent := within.mono (fun _ => incidental_silent)
  unfold emailVerify
  refine obeys_silent (incidental (gate_incidental ..)) (gate_plain req) (fun gated known => ?_)
  split
  · exact .answer (plain initial (known _ rfl))
  split
  · exact .answer (plain initial (by simp [Plain, payloadTooLarge, Response.error]))
  split
  case h_2 => exact .answer (plain initial (by simp [Plain, Response.error]))
  next email address =>
  split
  case h_2 => exact .answer (plain initial (by simp [Plain, Response.error]))
  next code digits =>
  refine obeys_silent (incidental (botRefused_incidental ..)) (botRefused_plain _)
    (fun bot known => ?_)
  split
  · exact .answer (plain initial (known _ rfl))
  refine perform_silent trivial (fun now => ipLimited_passes.bind ?_)
  rintro use hit ⟨fresh, refused, passes⟩
  split
  · exact .answer (plain fresh (refused _ rfl))
  next unhit =>
  have passed : use.PassedAt cfg req now := passes (by
    cases hit with
    | none => rfl
    | some response => exact absurd rfl (unhit response))
  refine (breakerRefused_opened configured fresh passed).bind ?_
  rintro use refusal ⟨fresh, passed, opened⟩
  split
  · exact .answer (by simp [BreakerUse.Settled, fresh.unreported, fresh.uncompared, opened])
  refine obeys_silent (incidental (deviceOfAddress_incidental ..)) (Program.gives_true _)
    (fun device _ => ?_)
  have failures := budget_elsewhere cfg (sha256Hex platform email) device List.mem_cons_self
  refine perform_silent (countsIn_of_counted rfl failures) (fun slot => ?_)
  split
  · refine perform_silent trivial (fun _ => ?_)
    refine perform_silent (countsIn_of_uncounted rfl) (fun current => .answer ?_)
    exact plain fresh (by simp [Plain, retryResponse])
  · exact checkCode_settles configured failures fresh passed

end Verification

/-- All other routes are silent, by cases on the route and the call. -/
theorem handle_silent {request : Request} (other : ∀ req, request ≠ .emailVerify req)
    : (handle platform cfg request).Within silent := by
  have footprint := handle_within platform cfg request
  have counts : (handle platform cfg request).Within (countsIn Elsewhere) := by
    cases request with
    | emailStart req => exact emailStart_elsewhere req
    | emailVerify req => exact absurd rfl (other req)
    | pinLogin req => exact pinLogin_counts req (ipBucket_elsewhere (by simp))
    | setPin req => exact footprint.mono (fun _ => setPin_counts)
    | _ => exact footprint.mono (fun _ => manage_counts)
  refine (footprint.and counts).mono (fun op both => ?_)
  obtain ⟨allowed, counts⟩ := both
  rcases op with call | call | call
  · cases request
    case emailVerify req => exact absurd rfl (other req)
    all_goals cases call <;> first | exact allowed.elim | exact counts
  · trivial
  · trivial

/-- Every request settles with the breaker; only verifications do anything about it. -/
theorem handle_settles (configured : cfg.breaker = some breaker) (request : Request)
    : (handle platform cfg request).Obeys (breakerMonitor platform cfg breaker) BreakerUse.Settled
        { request } := by
  by_cases verifies : ∃ req, request = .emailVerify req
  · obtain ⟨req, rfl⟩ := verifies
    exact emailVerify_settles configured req
  · refine (silent_obeys (handle_silent (not_exists.mp verifies)) (Program.gives_true _)).mono ?_
    rintro _ response ⟨rfl, -⟩
    simpa [BreakerUse.Settled] using fun req same => absurd ⟨req, same⟩ verifies

end WorkersAuth.DeviceAuth

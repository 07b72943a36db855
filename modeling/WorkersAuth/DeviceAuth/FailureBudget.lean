import WorkersAuth.DeviceAuth.Deployment
import WorkersAuth.DeviceAuth.Footprint
import WorkersAuth.DeviceAuth.RateLimits

/-! The failure budgets of `POST /email/verify`.
A slot is reserved before anything is checked and given back on success or when there was
nothing to check. Whatever the interleaving, a budget's row counts exactly the slots that
are held: by requests still at work, and by checked failures for good.
-/

namespace WorkersAuth

open Atomic Counters DeviceAuth

namespace DeviceAuth

variable (platform : Platform) (cfg : Config)

-----------------------------------------------------------------------------------------
-- What a request has done to the budgets
-----------------------------------------------------------------------------------------

/-- How a verification came out. -/
inductive VerifyOutcome where
  | refusedAtCap
  | noLiveCode
  | checkedFailure
  | accepted
  deriving DecidableEq

/-- The slot a request took, as its bucket and the start of its window, whether it gave the
slot back, and how the verification came out.
-/
structure SlotUse where
  taken : Option (String × Millis) := none
  returned : Bool := false
  outcome : Option VerifyOutcome := none
  deriving DecidableEq

/-- What one more call says about the slot. The reasons of a failed code are
`no_live_code`, where nothing was compared, and those of a checked failure: `mismatch`,
`unknown_key`, `already_used` and `user_refused`.
-/
def SlotUse.next (use : SlotUse) : (op : Op) → op.Reply → SlotUse
  | .store (.reserveRateLimit bucket ..), some slot =>
      { use with taken := some (bucket, slot.windowStart) }
  | .store (.reserveRateLimit ..), none => { use with outcome := some .refusedAtCap }
  | .store (.refundRateLimit bucket windowStart), _ =>
      { use with returned := use.returned || use.taken = some (bucket, windowStart) }
  | .host (.onEvent (.emailCodeFailed _ reason)), _ =>
      { use with
        outcome := some (if reason = "no_live_code" then .noLiveCode else .checkedFailure) }
  | .host (.onEvent (.emailCodeVerified ..)), _ => { use with outcome := some .accepted }
  | _, _ => use

/-- The request holds a slot of this bucket and window: taken and not given back. -/
def SlotUse.holds (use : SlotUse) (bucket : String) (windowStart : Millis) : Bool :=
  use.taken = some (bucket, windowStart) && !use.returned

/-- When a request is through, it still holds a slot exactly for a checked failure, and a
checked failure is no success.
-/
def SlotUse.Settled (use : SlotUse) (response : Response) : Prop :=
  (use.outcome = some .checkedFailure ↔ use.taken.isSome ∧ use.returned = false)
  ∧ (response.status = 200 → use.outcome ≠ some .checkedFailure)

/-- The protocol of a slot: at most one is taken, of a budget and with its maximum; only a
slot that is held is given back; no other counter is in a failure bucket.
-/
def slotMonitor : Monitor Op Op.Reply SlotUse where
  allows use
    | .store (.hitRateLimit bucket ..) => ¬FailureBucket bucket
    | .store (.hitCircuitBreaker bucket ..) => ¬FailureBucket bucket
    | .store (.reserveRateLimit bucket windowMs _ max) =>
        use.taken = none ∧ use.returned = false ∧ windowMs = cfg.failureWindowSec * sec
        ∧ ∃ email device,
            bucket = (budgetFor cfg (sha256Hex platform email) device).failures
            ∧ max = (budgetFor cfg (sha256Hex platform email) device).maxFailures
    | .store (.refundRateLimit bucket windowStart) => use.holds bucket windowStart
    | _ => True
  next := SlotUse.next

theorem cbBucket_not_failureBucket : ¬FailureBucket cbBucket := by
  simp [FailureBucket, cbBucket]

variable {platform cfg}

/-- Before the slot is reserved nothing concerns it. -/
theorem slotMonitor_ignores_prelude (use : SlotUse)
    : (slotMonitor platform cfg).Ignores use (preludeCalls true) := by
  intro op allowed
  cases op with
  | session call => exact ⟨trivial, fun _ => rfl⟩
  | store call =>
      cases call <;>
        first | exact allowed.elim | exact ⟨trivial, fun _ => rfl⟩ | exact ⟨allowed, fun _ => rfl⟩
  | host call => cases call with
    | onEvent event => cases event <;> first | exact allowed.elim | exact ⟨trivial, fun _ => rfl⟩
    | _ => exact ⟨trivial, fun _ => rfl⟩

/-- Once the code is accepted, the slot is left as it is and no failure is reported. -/
theorem verified_keeps_slot (taken : Option (String × Millis)) (returned : Bool) {use : SlotUse}
    {op : Op}
    (kept : use.taken = taken ∧ use.returned = returned ∧ use.outcome ≠ some .checkedFailure)
    (allowed : verifiedCalls op)
    : (slotMonitor platform cfg).allows use op ∧ ∀ reply,
        ((slotMonitor platform cfg).next use op reply).taken = taken
        ∧ ((slotMonitor platform cfg).next use op reply).returned = returned
        ∧ ((slotMonitor platform cfg).next use op reply).outcome ≠ some .checkedFailure := by
  cases op with
  | session call => exact ⟨trivial, fun _ => kept⟩
  | store call => cases call <;> first | exact allowed.elim | exact ⟨trivial, fun _ => kept⟩
  | host call => cases call with
    | onEvent event =>
        cases event <;> first | exact allowed.elim | exact ⟨trivial, fun _ => kept⟩ | skip
        exact ⟨trivial, fun _ => ⟨kept.1, kept.2.1, by simp [slotMonitor, SlotUse.next]⟩⟩
    | _ => exact ⟨trivial, fun _ => kept⟩

/-- The breaker's counter does not concern the slot. -/
theorem checked_slot (use : SlotUse) (now : Millis) (failed : Bool)
    : (checked cfg now failed).Obeys (slotMonitor platform cfg) (fun after _ => after = use) use :=
  (checked_within cfg (fun op => ∃ windowMs,
      op = .store (.hitCircuitBreaker cbBucket windowMs now failed)) (fun windowMs => ⟨windowMs, rfl⟩)).obeys
    (by
      rintro _ ⟨windowMs, rfl⟩
      exact ⟨cbBucket_not_failureBucket, fun _ => rfl⟩)

variable (platform cfg) in
/-- A refused code settles the slot by keeping it. -/
theorem invalid_slot (email : String) (now : Millis) {reason : String} (slot : String × Millis)
    (compared : reason ≠ "no_live_code")
    : (invalid platform cfg email now reason).Obeys (slotMonitor platform cfg) SlotUse.Settled
        { taken := some slot } := by
  refine .perform trivial (fun _ _ => (checked_slot _ _ _).bind ?_)
  rintro _ _ rfl
  simp [SlotUse.Settled, slotMonitor, SlotUse.next, compared, Response.error]

/-- From the reserved slot on, every way out settles it. -/
theorem checkCode_slot (req : HttpRequest) (email code : String) (now : Millis)
    (budget : Budget) (slot : WindowCount) (trustDevice : Bool) (label : Option String)
    : (checkCode platform cfg req email code now budget slot trustDevice label).Obeys
        (slotMonitor platform cfg) SlotUse.Settled
        { taken := some (budget.failures, slot.windowStart) } := by
  have invalid {reason : String} (compared : reason ≠ "no_live_code") :=
    invalid_slot platform cfg email now (budget.failures, slot.windowStart) compared
  unfold checkCode
  refine .perform trivial (fun reserved _ => ?_)
  cases reserved with
  | none =>
      refine .perform (by simp [slotMonitor, SlotUse.next, SlotUse.holds]) (fun _ _ => ?_)
      refine .perform trivial (fun _ _ => ?_)
      simp [SlotUse.Settled, slotMonitor, SlotUse.next, Response.error]
  | some reserved =>
      simp only
      split
      · exact invalid (by decide)
      split
      · exact invalid (by decide)
      refine .perform trivial (fun consumed _ => ?_)
      split
      · exact invalid (by decide)
      refine .perform trivial (fun resolved _ => ?_)
      split
      · exact invalid (by decide)
      refine .perform (by simp [slotMonitor, SlotUse.next, SlotUse.holds]) (fun _ _ => ?_)
      refine (checked_slot _ _ _).bind ?_
      rintro _ _ rfl
      refine (((emailVerified_within ..).obeys_keeps _ (fun _ _ kept allowed =>
        verified_keeps_slot (some (budget.failures, slot.windowStart)) true kept allowed) ?_).mono ?_)
      · simp [slotMonitor, SlotUse.next]
      · rintro use response ⟨taken, returned, outcome⟩
        simp [SlotUse.Settled, returned, outcome]

/-- `POST /email/verify` settles the slot it takes. -/
theorem emailVerify_slot (req : HttpRequest)
    : (emailVerify platform cfg req).Obeys (slotMonitor platform cfg) SlotUse.Settled {} := by
  refine emailVerify_obeys platform cfg req (skips_of_ignores (slotMonitor_ignores_prelude _)) rfl ?_ ?_
  · rintro _ _ rfl _
    simp [SlotUse.Settled]
  rintro _ email code now device rfl _ _ _
  refine .perform ⟨rfl, rfl, rfl, email, device, rfl, rfl⟩ (fun slot _ => ?_)
  cases slot with
  | none =>
      refine .perform trivial (fun _ _ => .perform trivial (fun _ _ => ?_))
      simp [SlotUse.Settled, slotMonitor, SlotUse.next]
  | some slot => exact checkCode_slot ..

variable (platform cfg) in
/-- No other route takes a slot, gives one back or reports on a code. -/
theorem slotMonitor_ignores_others {request : Request} (use : SlotUse)
    (other : ∀ req, request ≠ .emailVerify req)
    : (slotMonitor platform cfg).Ignores use (request.calls platform cfg) := by
  intro op allowed
  cases request
  case emailVerify req => exact absurd rfl (other req)
  all_goals cases op with
    | session call => exact ⟨trivial, fun _ => rfl⟩
    | store call =>
        cases call <;>
          first | exact allowed.elim | exact ⟨trivial, fun _ => rfl⟩ | exact ⟨allowed, fun _ => rfl⟩
    | host call => cases call with
      | onEvent event => cases event <;> first | exact allowed.elim | exact ⟨trivial, fun _ => rfl⟩
      | _ => exact ⟨trivial, fun _ => rfl⟩

/-- Every request settles the slots it takes; only `POST /email/verify` takes any. -/
theorem handle_slot (request : Request)
    : (handle platform cfg request).Obeys (slotMonitor platform cfg) SlotUse.Settled {} := by
  by_cases verifies : ∃ req, request = .emailVerify req
  · obtain ⟨req, rfl⟩ := verifies
    exact emailVerify_slot req
  · have ignores := slotMonitor_ignores_others platform cfg {}
      (not_exists.mp verifies)
    refine ((handle_within platform cfg request).obeys ignores).mono ?_
    rintro _ response rfl
    simp [SlotUse.Settled]

-----------------------------------------------------------------------------------------
-- The invariant
-----------------------------------------------------------------------------------------

/-- How many requests hold a slot of a bucket, by window. -/
def holders (uses : List SlotUse) (bucket : String) (windowStart : Millis) : Nat :=
  uses.countP (·.holds bucket windowStart)

/-- A budget's row is balanced with the requests that hold a slot of it. -/
def Budget.InBalance (budget : Budget) (db : Database) (uses : List SlotUse) : Prop :=
  Balanced budget.maxFailures (db.window budget.failures) (holders uses budget.failures)

/-- A budget's maximum is a function of its bucket: an address hash is hexadecimal, so no
address has the bucket of a device.
-/
theorem budgetFor_maxFailures_eq {email email' : String} {device device' : Option DeviceRecord}
    (same : (budgetFor cfg (sha256Hex platform email) device).failures
      = (budgetFor cfg (sha256Hex platform email') device').failures)
    : (budgetFor cfg (sha256Hex platform email) device).maxFailures
      = (budgetFor cfg (sha256Hex platform email') device').maxFailures := by
  have apart (email deviceId : String)
      : "otp-fail:" ++ sha256Hex platform email ≠ "otp-fail:device:" ++ deviceId := by
    intro equal
    have chars := congrArg String.toList equal
    simp only [String.toList_append] at chars
    have hash : (sha256Hex platform email).toList = "device:".toList ++ deviceId.toList :=
      List.append_cancel_left
        (show "otp-fail:".toList ++ _ = "otp-fail:".toList ++ ("device:".toList ++ _) from chars)
    have member : 'v' ∈ (sha256Hex platform email).toList := by rw [hash]; simp
    exact absurd (isHexChar_of_mem_toHex member) (by decide)
  cases device <;> cases device' <;> simp only [budgetFor] at same ⊢
  · exact absurd same (apart _ _)
  · exact absurd same.symm (apart _ _)

theorem budgetFor_maxFailures_pos (emailKey : String) (device : Option DeviceRecord)
    : 0 < (budgetFor cfg emailKey device).maxFailures := by
  cases device
  · exact cfg.maxFailuresPerEmail_pos
  · exact cfg.maxFailuresPerDevice_pos

section Step

variable {db after : Database} {uses : List SlotUse} {index : Nat} {use : SlotUse}
  {budget reserved : Budget}

/-- A budget is in balance when its window and its holders are those of a balanced counter. -/
theorem Budget.InBalance.of_balanced {window : Option (Window Millis)} {counts : Millis → Nat}
    (balanced : Balanced budget.maxFailures window counts)
    (window_eq : db.window budget.failures = window)
    (holders_eq : ∀ start, holders uses budget.failures start = counts start)
    : budget.InBalance db uses := by
  rw [Budget.InBalance, window_eq, funext holders_eq]
  exact balanced

/-- A call that moves no slot and not the budget's window. -/
theorem Budget.InBalance.quiet (balanced : budget.InBalance db uses)
    (found : uses[index]? = some use) {next : SlotUse}
    (window : after.window budget.failures = db.window budget.failures)
    (taken : next.taken = use.taken) (returned : next.returned = use.returned)
    : budget.InBalance after (uses.set index next) := by
  refine .of_balanced balanced window (fun start => ?_)
  have moved := countP_ghosts_set found next (·.holds budget.failures start)
  simp only [SlotUse.holds, taken, returned] at moved
  exact Nat.add_right_cancel moved

/-- A slot is reserved: its bucket gets one holder more, the others do not change. -/
theorem Budget.InBalance.reserve (balanced : budget.InBalance db uses)
    (found : uses[index]? = some use) (free : use.taken = none) (unused : use.returned = false)
    {now : Millis} {slot : WindowCount} (positive : 0 < budget.maxFailures)
    (bounded : reserved.failures = budget.failures → reserved.maxFailures = budget.maxFailures)
    (ran : db.reserveRateLimit reserved.failures (cfg.failureWindowSec * sec) now
        reserved.maxFailures = (some slot, after))
    : budget.InBalance after
        (uses.set index { use with taken := some (reserved.failures, slot.windowStart) }) := by
  have moved (start : Millis)
      : holders (uses.set index { use with taken := some (reserved.failures, slot.windowStart) })
          budget.failures start
        = holders uses budget.failures start
          + if reserved.failures = budget.failures ∧ slot.windowStart = start then 1 else 0 := by
    have := countP_ghosts_set found
      { use with taken := some (reserved.failures, slot.windowStart) } (·.holds budget.failures start)
    simpa [holders, SlotUse.holds, free, unused] using this
  by_cases same : reserved.failures = budget.failures
  · obtain ⟨reply_eq, after_eq⟩ := reserveRateLimit_eq db reserved.failures
      (cfg.failureWindowSec * sec) now reserved.maxFailures
    rw [ran] at reply_eq after_eq
    obtain ⟨taken, granted, rfl⟩ := Option.map_eq_some_iff.mp reply_eq.symm
    rw [bounded same, same] at granted
    have more := Balanced.reserve balanced positive
      (mul_pos cfg.failureWindow_pos (by decide +kernel)) granted
    rw [bounded same, same, granted] at after_eq
    refine .of_balanced more after_eq (fun start => ?_)
    rw [moved]
    simp only [same, true_and, eq_comm (a := taken.start)]
  · have elsewhere : after.window budget.failures = db.window budget.failures :=
      StoreCall.window_eq (.reserveRateLimit _ _ now _) (congrArg some ran)
        (by simpa [StoreCall.countedBucket] using same)
    refine .of_balanced balanced elsewhere (fun start => ?_)
    rw [moved, if_neg (fun both => same both.1), Nat.add_zero]

/-- A held slot is given back. -/
theorem Budget.InBalance.refund (balanced : budget.InBalance db uses)
    (found : uses[index]? = some use) {bucket : String} {windowStart : Millis}
    (held : use.holds bucket windowStart)
    : budget.InBalance (db.refundRateLimit bucket windowStart)
        (uses.set index { use with returned := true }) := by
  obtain ⟨taken, unreturned⟩ : use.taken = some (bucket, windowStart) ∧ use.returned = false := by
    simpa [SlotUse.holds] using held
  have moved (start : Millis)
      : holders (uses.set index { use with returned := true }) budget.failures start
          + (if bucket = budget.failures ∧ windowStart = start then 1 else 0)
        = holders uses budget.failures start := by
    have := countP_ghosts_set found { use with returned := true } (·.holds budget.failures start)
    simpa [holders, SlotUse.holds, taken, unreturned] using this
  by_cases same : bucket = budget.failures
  · subst same
    have less := Balanced.refund balanced windowStart (fun none_ => by
      have := moved windowStart
      simp [none_] at this)
    refine .of_balanced less (refundRateLimit_eq ..) (fun start => ?_)
    simp only [true_and, eq_comm (a := windowStart)] at moved
    exact Nat.eq_sub_of_add_eq (moved start)
  · have elsewhere : (db.refundRateLimit bucket windowStart).window budget.failures
        = db.window budget.failures :=
      StoreCall.window_eq (.refundRateLimit bucket windowStart) rfl
        (by simpa [StoreCall.countedBucket] using same)
    refine .of_balanced balanced elsewhere (fun start => ?_)
    simpa [same] using moved start

/-- Every call that the protocol allows keeps a budget in balance, by cases on the call. -/
theorem Budget.InBalance.call {σ : Type} {sessions : Semantics SessionCall SessionCall.Reply σ}
    {world after : World σ} {op : Op} {reply : op.Reply} {email : String}
    {device : Option DeviceRecord}
    (balanced : (budgetFor cfg (sha256Hex platform email) device).InBalance world.db uses)
    (found : uses[index]? = some use) (allowed : (slotMonitor platform cfg).allows use op)
    (executes : exec platform sessions op world reply after)
    : (budgetFor cfg (sha256Hex platform email) device).InBalance after.db
        (uses.set index (use.next op reply)) := by
  have failure := budgetFor_failureBucket cfg (sha256Hex platform email) device
  have apart {bucket : String} (other : ¬FailureBucket bucket)
      : some bucket ≠ some (budgetFor cfg (sha256Hex platform email) device).failures :=
    fun same => other (Option.some.inj same ▸ failure)
  cases op with
  | session call => exact balanced.quiet found (by rw [executes.2]) rfl rfl
  | host call =>
      have unchanged : (use.next (.host call) reply).taken = use.taken
          ∧ (use.next (.host call) reply).returned = use.returned := by
        cases call with
        | onEvent event => cases event <;> exact ⟨rfl, rfl⟩
        | _ => exact ⟨rfl, rfl⟩
      exact balanced.quiet found (by rw [executes.2]) unchanged.1 unchanged.2
  | store call =>
      have ran := executes.1
      cases call with
      | reserveRateLimit bucket windowMs now max =>
          obtain ⟨free, unused, rfl, email', device', rfl, rfl⟩ := allowed
          have run := Option.some.inj ran
          cases reply with
          | some slot =>
              exact balanced.reserve found free unused (budgetFor_maxFailures_pos _ _)
                budgetFor_maxFailures_eq run
          | none =>
              exact balanced.quiet found (reserveRateLimit_refused run _) rfl rfl
      | refundRateLimit bucket windowStart =>
          have after_eq : world.db.refundRateLimit bucket windowStart = after.db :=
            congrArg Prod.snd (Option.some.inj ran)
          have next_eq : use.next (.store (.refundRateLimit bucket windowStart)) reply
              = { use with returned := true } := by
            have held : use.taken = some (bucket, windowStart) := by
              simpa using (Bool.and_eq_true_iff.mp allowed).1
            simp [SlotUse.next, held]
          rw [next_eq, ← after_eq]
          exact balanced.refund found allowed
      | hitRateLimit bucket windowMs now =>
          exact balanced.quiet found (StoreCall.window_eq _ ran (apart allowed)) rfl rfl
      | hitCircuitBreaker bucket windowMs now failed =>
          exact balanced.quiet found (StoreCall.window_eq _ ran (apart allowed)) rfl rfl
      | _ => exact balanced.quiet found (StoreCall.window_eq _ ran nofun) rfl rfl

end Step

-----------------------------------------------------------------------------------------
-- Every reachable state
-----------------------------------------------------------------------------------------

/-- The slot one request has used, as its own calls tell. -/
def slotUse (one : Progress Op Op.Reply Request Response) : SlotUse :=
  one.history.foldl (fun use call => use.next call.op call.ret) {}

/-- The request took a slot of this window, has not given it back and is still in flight. -/
def atWork (bucket : String) (windowStart : Millis) (one : Progress Op Op.Reply Request Response)
    : Bool :=
  one.inFlight && (slotUse one).holds bucket windowStart

/-- The request took a slot of this window and ended as a checked failure. -/
def charged (bucket : String) (windowStart : Millis) (one : Progress Op Op.Reply Request Response)
    : Bool :=
  !one.inFlight && ((slotUse one).taken = some (bucket, windowStart)
    && (slotUse one).outcome = some .checkedFailure)

section Reachable

variable {σ : Type} {sessions : Semantics SessionCall SessionCall.Reply σ} {world : World σ}
  {pool : Pool Op Op.Reply (World σ) Request Response}

/-- Before any verification, all budgets are in balance: their rows do not exist. -/
theorem Budget.InBalance.start {db : Database} {budget : Budget}
    (fresh : db.limits.find budget.failures = none)
    : budget.InBalance db [] :=
  .of_balanced (Balanced.empty _) (by rw [Database.window, fresh]; rfl) (fun _ => rfl)

/-- Every budget is in balance in every reachable state, by the invariant rule. -/
theorem reachable_inBalance
    (fresh : ∀ row ∈ world.db.limits.rows, ¬FailureBucket row.bucket)
    (reach : (deviceAuth platform cfg sessions).Reachable world pool) (email : String)
    (device : Option DeviceRecord)
    : (budgetFor cfg (sha256Hex platform email) device).InBalance pool.world.db
        (pool.progress.map slotUse) := by
  refine reach.invariant (fun _ _ _ _ _ => trivial) handle_slot
    (fun world uses _ => (budgetFor cfg (sha256Hex platform email) device).InBalance world.db uses)
    ?_ ?_ ?_
  · refine .start (Tables.Table.find_eq_none_iff.mpr (fun taken => ?_))
    obtain ⟨row, stored, same⟩ := List.mem_map.mp taken
    exact fresh row stored (same ▸ budgetFor_failureBucket cfg _ device)
  · intro world uses log request balanced
    refine .of_balanced balanced rfl (fun start => ?_)
    simp [holders, SlotUse.holds]
  · intro world uses log index use op reply after found allowed executes balanced
    exact balanced.call found allowed executes

/-- Every request that has answered has settled its slot. -/
theorem reachable_settled (reach : (deviceAuth platform cfg sessions).Reachable world pool)
    {one : Progress Op Op.Reply Request Response} (member : one ∈ pool.progress)
    {response : Response} (answered : one.rest = .pure response)
    : (slotUse one).Settled response := by
  have obeys := reach.obeys (fun _ _ _ _ _ => trivial) handle_slot one member
  rw [answered] at obeys
  exact obeys

/-- Once it has answered, a request holds a slot exactly when it took it and ended as a
checked failure.
-/
theorem reachable_charged (reach : (deviceAuth platform cfg sessions).Reachable world pool)
    {one : Progress Op Op.Reply Request Response} (member : one ∈ pool.progress)
    (answered : one.inFlight = false) (bucket : String) (windowStart : Millis)
    : (slotUse one).holds bucket windowStart = charged bucket windowStart one := by
  have settled (response : Response) (rest : one.rest = .pure response) :=
    (reachable_settled reach member rest).1
  simp only [charged, answered, Bool.not_false, Bool.true_and, SlotUse.holds]
  cases rest : one.rest with
  | call op next => simp [Progress.inFlight, rest] at answered
  | pure response =>
      have iff := settled response rest
      by_cases taken : (slotUse one).taken = some (bucket, windowStart)
      · by_cases failed : (slotUse one).outcome = some .checkedFailure
        · simp [taken, failed, (iff.mp failed).2]
        · have returned : (slotUse one).returned = true := by
            by_contra kept
            exact failed (iff.mpr ⟨by simp [taken], by simpa using kept⟩)
          simp [failed, returned]
      · simp [taken]

/-- The holders of a window are the requests at work with its slots and the failures charged
to it.
-/
theorem holders_eq (reach : (deviceAuth platform cfg sessions).Reachable world pool)
    (bucket : String) (windowStart : Millis)
    : holders (pool.progress.map slotUse) bucket windowStart
      = pool.progress.countP (atWork bucket windowStart)
        + pool.progress.countP (charged bucket windowStart) := by
  have answered : (pool.progress.filter (fun one => !one.inFlight)).countP
        (fun one => (slotUse one).holds bucket windowStart)
      = pool.progress.countP (charged bucket windowStart) := by
    rw [List.countP_filter]
    refine List.countP_congr (fun one member => ?_)
    cases flying : one.inFlight with
    | true => simp [flying, charged]
    | false => rw [reachable_charged reach member flying, Bool.not_false, Bool.and_true]
  have working : (pool.progress.filter Progress.inFlight).countP
        (fun one => (slotUse one).holds bucket windowStart)
      = pool.progress.countP (atWork bucket windowStart) := by
    rw [List.countP_filter]
    exact List.countP_congr (fun one _ => by rw [atWork, Bool.and_comm])
  rw [holders, List.countP_map, List.countP_eq_countP_filter_add _ _ Progress.inFlight, ← working, ← answered]
  rfl

/-- The failure budgets, in every reachable state of any interleaving. A budget's row counts
the requests that took a slot in its window and are still in flight without having given
it back, and those that ended as a checked failure; it never exceeds the maximum, nor do
the checked failures of any window. A request that was refused at the cap, found no live
code or succeeded holds nothing any more once it has answered.
-/
theorem failureBudget_counts
    (fresh : ∀ row ∈ world.db.limits.rows, ¬FailureBucket row.bucket)
    (reach : (deviceAuth platform cfg sessions).Reachable world pool) (email : String)
    (device : Option DeviceRecord)
    : let budget := budgetFor cfg (sha256Hex platform email) device
      (∀ row ∈ pool.world.db.limits.find budget.failures,
        row.count = pool.progress.countP (atWork budget.failures row.windowStart)
            + pool.progress.countP (charged budget.failures row.windowStart)
        ∧ row.count ≤ budget.maxFailures)
      ∧ (∀ windowStart,
          pool.progress.countP (charged budget.failures windowStart) ≤ budget.maxFailures)
      ∧ (∀ one ∈ pool.progress, ∀ response, one.rest = .pure response
          → (slotUse one).outcome = some .refusedAtCap ∨ (slotUse one).outcome = some .noLiveCode
            ∨ response.status = 200
          → ∀ bucket windowStart, (slotUse one).holds bucket windowStart = false) := by
  intro budget
  have balanced := reachable_inBalance fresh reach email device
  refine ⟨fun row found => ?_, fun windowStart => ?_, ?_⟩
  · have counted := balanced.counted ⟨row.windowStart, row.count⟩
      (by rw [Database.window, Option.mem_def.mp found]; rfl)
    have bounded := balanced.bounded row.windowStart
    rw [← counted] at bounded
    exact ⟨counted.trans (holders_eq reach ..), bounded⟩
  · have bounded := balanced.bounded windowStart
    rw [holders_eq reach] at bounded
    exact (Nat.le_add_left ..).trans bounded
  · intro one member response answered ended bucket windowStart
    have settled := reachable_settled reach member answered
    have failed : (slotUse one).outcome ≠ some .checkedFailure := by
      rcases ended with refused | nothing | success
      · simp [refused]
      · simp [nothing]
      · exact settled.2 success
    by_contra held
    simp only [SlotUse.holds, Bool.not_eq_false, Bool.and_eq_true, decide_eq_true_eq,
      Bool.not_eq_true'] at held
    exact failed (settled.1.mpr ⟨by rw [held.1]; rfl, held.2⟩)

end Reachable

section Played

open Sample

/-- The failure bucket of the sample address. -/
def sampleFailures : String :=
  "otp-fail:0b4eed6a0d5eab16ee89d796aeb47fcc0f21394df7f54c8b3baf72467a67da6c"

/-- The request took a slot of this window and is still in flight, whatever became of it. -/
def tookInFlight (bucket : String) (windowStart : Millis)
    (one : Progress Op Op.Reply Request Response)
    : Bool :=
  one.inFlight && (slotUse one).taken = some (bucket, windowStart)

/-- A wrong code was refused, and another verification has just reserved its slot: the row
counts both.
-/
theorem failureBudget_counts_played
    : ∃ state, service.Reachable empty state
        ∧ ∃ row ∈ state.world.db.limits.find sampleFailures,
          row.count = 2
          ∧ row.count = state.progress.countP (atWork sampleFailures row.windowStart)
              + state.progress.countP (charged sampleFailures row.windowStart)
          ∧ row.count ≤ 3 := by
  obtain ⟨state, reach, holds⟩ := exists_played empty
    (issued ++ [.arrive (verifyRequest "105833"), .arrive (verifyRequest "482915")]
      ++ calls 1000 1 4 ++ calls 1000 2 3)
    (fun state => (state.world.db.limits.find sampleFailures).any (fun row => row.count = 2))
    (by decide +kernel)
  obtain ⟨row, found, two⟩ := (Option.any_eq_true ..).mp holds
  have bucket : (budgetFor config (sha256Hex platform "user42@example.com") none).failures
      = sampleFailures := by decide +kernel
  have counted := (failureBudget_counts (List.forall_mem_nil _) reach
    "user42@example.com" none).1 row (by rw [bucket]; exact found)
  rw [bucket] at counted
  exact ⟨state, reach, row, found, of_decide_eq_true two, counted.1, counted.2⟩

/-- A verification whose code was right has given its slot back and goes on to sign in: it
took a slot and is in flight, and the row does not count it.
-/
theorem failureBudget_returned
    : ∃ state, service.Reachable empty state
        ∧ ∃ row ∈ state.world.db.limits.find sampleFailures,
          row.count ≠ state.progress.countP (tookInFlight sampleFailures row.windowStart)
            + state.progress.countP (charged sampleFailures row.windowStart) := by
  obtain ⟨state, reach, holds⟩ := exists_played empty
    (issued ++ .arrive (verifyRequest "482915") :: calls 1000 1 6)
    (fun state => (state.world.db.limits.find sampleFailures).any (fun row =>
      row.count ≠ state.progress.countP (tookInFlight sampleFailures row.windowStart)
        + state.progress.countP (charged sampleFailures row.windowStart)))
    (by decide +kernel)
  obtain ⟨row, found, differs⟩ := (Option.any_eq_true ..).mp holds
  exact ⟨state, reach, row, found, of_decide_eq_true differs⟩

end Played

end DeviceAuth

end WorkersAuth

import WorkersAuth.DeviceAuth.PinLock

/-! `pin.locked`.
A login that used up the last attempt with a wrong PIN tries to lock the account and then
says that it did. The lock is a statement of its own and only takes when the attempts are
still used up, so the notice is true as long as nobody clears the guard in between.
-/

namespace WorkersAuth.DeviceAuth

open Atomic Counters

variable (platform : Platform) (cfg : Config)

-----------------------------------------------------------------------------------------
-- What a login does with its attempt
-----------------------------------------------------------------------------------------

/-- The attempt a request was granted, with the number it was given, and the account it has
tried to lock.
-/
structure Attempt where
  request : Request
  reserved : Option (String × Nat) := none
  tried : Option String := none

def Attempt.next (attempt : Attempt) : (op : Op) → op.Reply → Attempt
  | .store (.reserveLoginAttempt account ..), some count =>
      { attempt with reserved := some (account, count) }
  | .store (.lockAccount account ..), _ => { attempt with tried := some account }
  | _, _ => attempt

/-- A login tries to lock an account once, after its own attempt was the last one there; then
it says so and nothing else.
-/
def attemptMonitor : Monitor Op Op.Reply Attempt where
  allows attempt op :=
    match attempt.request, op with
    | .pinLogin _, .store (.lockAccount account ..) =>
        attempt.tried = none
        ∧ ∃ count, attempt.reserved = some (account, count) ∧ cfg.pinMaxAttempts ≤ count
    | .pinLogin _, .host (.onEvent (.pinLocked account _)) =>
        attempt.tried.all (· = account)
    | .pinLogin _, _ => attempt.tried = none
    | _, .store (.reserveLoginAttempt ..) => False
    | _, .store (.lockAccount ..) => False
    | _, _ => True
  next := Attempt.next

/-- A login that has tried to lock the account answers that an email is required. -/
def Attempt.Answered (attempt : Attempt) (response : Response) : Prop :=
  attempt.tried.isSome → response = emailVerificationRequired

variable {platform cfg}

@[simp] theorem Attempt.next_request (attempt : Attempt) (op : Op) (reply : op.Reply)
    : (attempt.next op reply).request = attempt.request := by
  cases op with
  | session call => rfl
  | host call => rfl
  | store call =>
      cases call with
      | reserveLoginAttempt => cases reply <;> rfl
      | _ => rfl

/-- A call grants the request its attempt or leaves it as it was; and what it had not tried
to lock afterwards, it had not before. By cases on the call.
-/
theorem Attempt.next_cases (attempt : Attempt) (op : Op) (reply : op.Reply)
    : ((∃ account maxAttempts now count,
          (⟨op, reply⟩ : Call Op Op.Reply)
            = ⟨.store (.reserveLoginAttempt account maxAttempts now), some count⟩
          ∧ (attempt.next op reply).reserved = some (account, count))
        ∨ (attempt.next op reply).reserved = attempt.reserved)
      ∧ ((attempt.next op reply).tried = none → attempt.tried = none) := by
  cases op with
  | session call => exact ⟨.inr rfl, id⟩
  | host call => exact ⟨.inr rfl, id⟩
  | store call =>
      cases call with
      | reserveLoginAttempt account maxAttempts now =>
          cases reply with
          | none => exact ⟨.inr rfl, id⟩
          | some count => exact ⟨.inl ⟨account, maxAttempts, now, count, rfl, rfl⟩, id⟩
      | lockAccount => exact ⟨.inr rfl, nofun⟩
      | _ => exact ⟨.inr rfl, id⟩

/-- Routes other than the PIN login neither take attempts nor lock accounts. -/
theorem others_attempt {request : Request} (other : ∀ req, request ≠ .pinLogin req)
    : (handle platform cfg request).Obeys (attemptMonitor cfg) Attempt.Answered { request } := by
  refine ((handle_within platform cfg request).obeys_keeps
    (fun attempt => attempt.request = request ∧ attempt.tried = none) ?_ ⟨rfl, rfl⟩).mono ?_
  · rintro attempt op ⟨rfl, free⟩ allowed
    obtain ⟨request, reserved, tried⟩ := attempt
    cases op with
    | session call => cases request <;> first | exact ⟨trivial, fun _ => ⟨rfl, free⟩⟩ | exact absurd rfl (other _)
    | host call =>
        cases request <;> first | exact ⟨trivial, fun _ => ⟨rfl, free⟩⟩ | exact absurd rfl (other _)
    | store call =>
        cases request <;> cases call <;>
          first
          | exact ⟨trivial, fun _ => ⟨rfl, free⟩⟩
          | exact allowed.elim
          | exact absurd rfl (other _)
  · rintro attempt response ⟨rfl, free⟩ tried
    simp [free] at tried

/-- Before it tries to lock, a login may make any call that neither reserves nor locks. -/
theorem attemptMonitor_ignores {attempt : Attempt} {req : HttpRequest} {ops : Op → Prop}
    (request : attempt.request = .pinLogin req) (free : attempt.tried = none)
    (quiet : ∀ op, ops op → preludeCalls false op ∨ signInCalls op
      ∨ (∃ pin key salt iterations, op = .host (.derive pin key salt iterations))
      ∨ ∃ account now, op = .store (.resetLoginGuard account now))
    : (attemptMonitor cfg).Ignores attempt ops := by
  obtain ⟨_, reserved, tried⟩ := attempt
  obtain rfl : _ = Request.pinLogin req := request
  obtain rfl : tried = none := free
  intro op allowed
  rcases quiet op allowed with quiet | quiet | ⟨_, _, _, _, rfl⟩ | ⟨_, _, rfl⟩
  · cases op with
    | session call => exact ⟨rfl, fun _ => rfl⟩
    | host call => 
        cases call with
        | onEvent event => cases event <;> exact ⟨rfl, fun _ => rfl⟩
        | _ => exact ⟨rfl, fun _ => rfl⟩
    | store call => cases call <;> first | exact quiet.elim | exact ⟨rfl, fun _ => rfl⟩
  · cases op with
    | session call => exact ⟨rfl, fun _ => rfl⟩
    | host call =>
        cases call with
        | onEvent event => cases event <;> exact ⟨rfl, fun _ => rfl⟩
        | _ => exact ⟨rfl, fun _ => rfl⟩
    | store call => cases call <;> first | exact quiet.elim | exact ⟨rfl, fun _ => rfl⟩
  · exact ⟨rfl, fun _ => rfl⟩
  · exact ⟨rfl, fun _ => rfl⟩

/-- From the loaded credential on, a login locks only after the last attempt and then answers.
-/
theorem attemptPin_attempt {req : HttpRequest} {pin : String} {device : DeviceRecord} {now : Millis}
    : (attemptPin platform cfg req pin device now).Obeys (attemptMonitor cfg) Attempt.Answered
        { request := .pinLogin req } := by
  have free {reserved : Option (String × Nat)} (response : Response)
      : Attempt.Answered { request := .pinLogin req, reserved } response := nofun
  refine .perform rfl (fun credential _ => ?_)
  cases credential with
  | none => exact .perform rfl (fun _ _ => free _)
  | some credential =>
      refine .perform rfl (fun granted _ => ?_)
      cases granted with
      | none => exact .perform rfl (fun _ _ => free _)
      | some failedCount =>
          have verifies : (pinVerify platform cfg.pinIterations pin credential.material
              (cfg.keys platform)).Within (fun op => op.Incidental
                ∨ ∃ pin key salt iterations, op = .host (.derive pin key salt iterations)) :=
            pinVerify_within platform (fun _ => .inl) (fun _ _ _ _ => .inr ⟨_, _, _, _, rfl⟩)
          refine verifies.obeys_bind (attemptMonitor_ignores rfl rfl ?_) (fun result => ?_)
          · intro op allowed
            rcases allowed with incidental | derives
            · exact .inl (incidental_prelude false incidental)
            · exact .inr (.inr (.inl derives))
          · cases result with
            | none => exact free _
            | some outcome =>
                cases outcome with
                | refused =>
                    refine .perform rfl (fun _ _ => ?_)
                    split
                    · next last =>
                        refine .perform ⟨rfl, failedCount, rfl, last⟩ (fun _ _ => ?_)
                        exact .perform (by simp [attemptMonitor, Attempt.next]) (fun _ _ _ => rfl)
                    · exact free _
                | ok upgraded =>
                    refine .perform rfl (fun _ _ => ?_)
                    refine ((signIn_within ..).obeys (attemptMonitor_ignores rfl rfl
                      (fun _ allowed => .inr (.inl allowed)))).mono ?_
                    intro attempt response same
                    subst same
                    exact free _

/-- Every request locks only after the last attempt and then answers. -/
theorem handle_attempt (request : Request)
    : (handle platform cfg request).Obeys (attemptMonitor cfg) Attempt.Answered { request } := by
  by_cases logs : ∃ req, request = .pinLogin req
  · obtain ⟨req, rfl⟩ := logs
    have ignores : (attemptMonitor cfg).Ignores { request := .pinLogin req } (preludeCalls false) :=
      attemptMonitor_ignores rfl rfl (fun _ allowed => .inl allowed)
    refine pinLogin_obeys platform cfg req (skips_of_ignores ignores) rfl ?_ ?_
    · intro attempt response same _
      subst same
      exact nofun
    · intro attempt pin now same _ _
      subst same
      exact loginOnDevice_obeys platform cfg ignores (fun _ _ => nofun) (fun _ => attemptPin_attempt)
  · exact others_attempt (not_exists.mp logs)

-----------------------------------------------------------------------------------------
-- The number a reservation answers
-----------------------------------------------------------------------------------------

/-- A granted reservation answers the attempts the guard counts from then on. -/
theorem guard_of_granted {db : Database} {accountId : String} {max count : Nat} {now : Millis}
    (granted : (db.reserveLoginAttempt accountId max now).1 = some count)
    : ∃ guard, (db.reserveLoginAttempt accountId max now).2.guard accountId = some guard
      ∧ guard.failed = count := by
  have reply_eq : (db.reserveLoginAttempt accountId max now).1
      = (db.guards.upsertReturning ⟨accountId, 1, none, now⟩
          (fun row => row.failedCount < max && row.lockedAt.isNone)
          (fun row => { row with failedCount := row.failedCount + 1, updatedAt := now })).1.map
        (·.failedCount) := rfl
  have after_eq : (db.reserveLoginAttempt accountId max now).2.guards
      = (db.guards.upsertReturning ⟨accountId, 1, none, now⟩
          (fun row => row.failedCount < max && row.lockedAt.isNone)
          (fun row => { row with failedCount := row.failedCount + 1, updatedAt := now })).2 := rfl
  rw [reply_eq, Tables.Table.upsertReturning_fst] at granted
  simp only [Database.guard, after_eq, Tables.Table.find_upsertReturning]
  split at granted
  · next applied =>
      obtain ⟨row, stored, rfl⟩ := Option.map_eq_some_iff.mp granted
      rw [if_pos ⟨trivial, applied⟩, stored]
      exact ⟨_, rfl, rfl⟩
  · contradiction

-----------------------------------------------------------------------------------------
-- The notice
-----------------------------------------------------------------------------------------

variable {σ : Type} {sessions : Semantics SessionCall SessionCall.Reply σ} {world : World σ}
  {pool next : Pool Op Op.Reply (World σ) Request Response} {entry : Entry Op Op.Reply}
  {one after : Progress Op Op.Reply Request Response} {accountId : String}

/-- What one request has done with its attempt, as its own calls tell. -/
def attemptOf (one : Progress Op Op.Reply Request Response) : Attempt :=
  one.history.foldl (fun attempt call => attempt.next call.op call.ret) { request := one.request }

variable (platform cfg) in
/-- A login at work that was granted the last attempt of the account, presents a wrong PIN
and has not tried to lock the account yet.
-/
def LastAttemptAtWork (accountId : String) (one : Progress Op Op.Reply Request Response) : Prop :=
  one.inFlight ∧ (attemptOf one).tried = none
    ∧ (∃ count, (attemptOf one).reserved = some (accountId, count) ∧ cfg.pinMaxAttempts ≤ count)
    ∧ ¬(loginUse one).Right platform cfg

variable (platform cfg) in
/-- The guard of an account is cleared only while no such login is at work on it. -/
def SparesLastAttempt (pool : Pool Op Op.Reply (World σ) Request Response)
    (entry : Entry Op Op.Reply)
    : Prop :=
  ∀ accountId, guardEvent accountId entry.call = some .reset
    → ∀ one ∈ pool.progress, ¬LastAttemptAtWork platform cfg accountId one

-----------------------------------------------------------------------------------------
-- One call
-----------------------------------------------------------------------------------------

/-- The step of a login is also a step with its attempt. -/
theorem LoginStep.attempt (reach : (deviceAuth platform cfg sessions).Reachable world pool)
    (performs : (deviceAuth platform cfg sessions).Performs pool entry next)
    (step : LoginStep platform cfg pool entry next one after)
    : (attemptMonitor cfg).allows (attemptOf one) entry.call.op
      ∧ attemptOf after = (attemptOf one).next entry.call.op entry.call.ret := by
  obtain ⟨request, rest, before, replaced⟩ := performs.progress_eq
  obtain rfl := Option.some.inj (before.symm.trans step.found)
  have inside := (List.getElem?_eq_some_iff.mp before).1
  have same : pool.progress.set entry.thread after = pool.progress.set entry.thread _ :=
    step.replaced.symm.trans replaced
  have moved := congrArg (·[entry.thread]?) same
  simp only [List.getElem?_set_self inside, Option.some.injEq] at moved
  have obeying := reach.obeys (fun _ _ _ _ _ => trivial) handle_attempt _
    (List.mem_of_getElem? before)
  refine ⟨obeying.1, ?_⟩
  rw [moved]
  simp only [attemptOf, List.foldl_append, List.foldl_cons, List.foldl_nil]

/-- The account that granted a request its attempt, read off either ghost state; by induction
on the history.
-/
theorem granted_eq (one : Progress Op Op.Reply Request Response)
    : (loginUse one).granted = (attemptOf one).reserved.map Prod.fst := by
  suffices ∀ (use : LoginUse) (attempt : Attempt),
      use.granted = attempt.reserved.map Prod.fst
      → (one.history.foldl (fun use call => use.next call.op call.ret) use).granted
        = (one.history.foldl (fun attempt call => attempt.next call.op call.ret)
            attempt).reserved.map Prod.fst from
    this _ _ rfl
  induction one.history with
  | nil => exact fun _ _ same => same
  | cons call rest ih =>
      intro use attempt same
      apply ih
      obtain ⟨op, reply⟩ := call
      cases op with
      | session call => exact same
      | host call => cases call <;> exact same
      | store call =>
          cases call with
          | reserveLoginAttempt => cases reply <;> first | exact same | rfl
          | _ => exact same

/-- A login with an attempt presents the right PIN before a call exactly when it does after
it: it loads no other credential.
-/
theorem right_next_iff {use : LoginUse} {op : Op} {reply : op.Reply}
    (allowed : (loginMonitor platform cfg).allows use op) (granted : use.granted = some accountId)
    : (use.next op reply).Right platform cfg ↔ use.Right platform cfg := by
  refine ⟨right_of_next allowed granted, fun right => ?_⟩
  cases op with
  | session call => exact right
  | host call => cases call <;> exact right
  | store call =>
      cases call with
      | getActiveCredential account type =>
          obtain ⟨request, loaded, attempt, derivations⟩ := use
          cases request with
          | pinLogin req =>
              have none_ : attempt = none := allowed.2
              exact absurd (none_.symm.trans granted) nofun
          | _ =>
              obtain ⟨_, _, presented, _⟩ := right
              exact absurd presented nofun
      | reserveLoginAttempt => cases reply <;> exact right
      | _ => exact right

/-- The guard of an account counts all its attempts as used. -/
def UsedUp (cfg : Config) (pool : Pool Op Op.Reply (World σ) Request Response)
    (accountId : String)
    : Prop :=
  ∃ guard, pool.world.db.guard accountId = some guard ∧ cfg.pinMaxAttempts ≤ guard.failed

/-- A guard that is used up stays so until it is cleared, by cases on what the call means. -/
theorem LoginStep.usedUp (step : LoginStep platform cfg pool entry next one after)
    (usedUp : UsedUp cfg pool accountId) (stays : guardEvent accountId entry.call ≠ some .reset)
    : UsedUp cfg next accountId := by
  obtain ⟨guard, current, full⟩ := usedUp
  cases means : guardEvent accountId entry.call with
  | none => exact ⟨guard, (step.guard_eq means).trans current, full⟩
  | some event =>
      have moved := (step.guard_event means).2
      rw [current] at moved
      cases event with
      | reset => exact absurd means stays
      | grant => exact ⟨_, moved, Nat.le_succ_of_le full⟩
      | refuse => exact ⟨_, moved, full⟩
      | lock now =>
          refine ⟨_, moved, ?_⟩
          simp only [if_pos full]
          exact full

/-- A guard that is used up is locked by the lock statement. -/
theorem LoginStep.locked (step : LoginStep platform cfg pool entry next one after)
    (usedUp : UsedUp cfg pool accountId) {now : Millis}
    (locks : guardEvent accountId entry.call = some (.lock now))
    : AccountLocked next accountId := by
  obtain ⟨guard, current, full⟩ := usedUp
  have moved := (step.guard_event locks).2
  rw [current] at moved
  simp [AccountLocked, moved, Locked, GuardEvent.apply, full]

/-- A login with the last attempt had it before the call, or is just being granted it by a
guard that is used up from then on.
-/
theorem LoginStep.lastAttempt (reach : (deviceAuth platform cfg sessions).Reachable world pool)
    (performs : (deviceAuth platform cfg sessions).Performs pool entry next)
    (step : LoginStep platform cfg pool entry next one after)
    (atWork : LastAttemptAtWork platform cfg accountId after)
    : LastAttemptAtWork platform cfg accountId one ∨ UsedUp cfg next accountId := by
  obtain ⟨_, tried, ⟨count, reserved, last⟩, wrong⟩ := atWork
  obtain ⟨_, moved⟩ := step.attempt reach performs
  rw [moved] at tried reserved
  obtain ⟨grants | same, before⟩ := (attemptOf one).next_cases entry.call.op entry.call.ret
  · right
    obtain ⟨account, maxAttempts, now, number, call_eq, next_eq⟩ := grants
    obtain ⟨rfl, rfl⟩ : account = accountId ∧ number = count := by
      simpa using next_eq.symm.trans reserved
    obtain ⟨thread, op, reply⟩ := entry
    cases call_eq
    have ran := performs.executes.1
    have stored : pool.world.db.reserveLoginAttempt account maxAttempts now
        = (some number, next.world.db) := Option.some.inj ran
    obtain ⟨guard, found, failed⟩ := guard_of_granted (congrArg Prod.fst stored)
    rw [stored] at found
    exact ⟨guard, found, failed ▸ last⟩
  · left
    rw [same] at reserved
    have granted : (loginUse one).granted = some accountId := by
      rw [granted_eq, reserved]
      rfl
    rw [step.use, right_next_iff step.allowed granted] at wrong
    exact ⟨step.flying, before tried, ⟨count, reserved, last⟩, wrong⟩

-----------------------------------------------------------------------------------------
-- Every run that spares the last attempt
-----------------------------------------------------------------------------------------

/-- The invariant: the guard of a login with the last attempt at work is used up. -/
def LastAttemptCounts (platform : Platform) (cfg : Config)
    (pool : Pool Op Op.Reply (World σ) Request Response)
    : Prop :=
  ∀ accountId, ∀ one ∈ pool.progress, LastAttemptAtWork platform cfg accountId one
    → UsedUp cfg pool accountId

/-- A call that spares the last attempts keeps the invariant. -/
theorem LastAttemptCounts.call (counts : LastAttemptCounts platform cfg pool)
    (reach : (deviceAuth platform cfg sessions).Reachable world pool)
    (performs : (deviceAuth platform cfg sessions).Performs pool entry next)
    (step : LoginStep platform cfg pool entry next one after)
    (spares : SparesLastAttempt platform cfg pool entry)
    : LastAttemptCounts platform cfg next := by
  have kept {accountId : String} {other : Progress Op Op.Reply Request Response}
      (member : other ∈ pool.progress) (atWork : LastAttemptAtWork platform cfg accountId other)
      : UsedUp cfg next accountId :=
    step.usedUp (counts accountId other member atWork)
      (fun resets => spares accountId resets other member atWork)
  intro accountId other member atWork
  rw [step.replaced] at member
  rcases List.mem_or_eq_of_mem_set member with old | same
  · exact kept old atWork
  · subst same
    rcases step.lastAttempt reach performs atWork with before | usedUp
    · exact kept (List.mem_of_getElem? step.found) before
    · exact usedUp

open Sample

end WorkersAuth.DeviceAuth

import WorkersAuth.DeviceAuth.PinAttempts

/-! The lock of an account.
A lock is lifted by a verified email code or a new PIN, as long as no login with the right
PIN already holds an attempt when it is set: such a login goes on, clears the guard it was
locked out by, and signs in.
-/

namespace WorkersAuth.DeviceAuth

open Atomic Counters

variable (platform : Platform) (cfg : Config) {σ : Type}
  {sessions : Semantics SessionCall SessionCall.Reply σ} {world : World σ}
  {pool next : Pool Op Op.Reply (World σ) Request Response}

/-- The account's guard is locked. -/
def AccountLocked (pool : Pool Op Op.Reply (World σ) Request Response) (accountId : String) : Prop :=
  Locked (pool.world.db.guard accountId)

/-- A login at work that holds an attempt of the account and presents the PIN of the
credential it has loaded.
-/
def RightPinAtWork (accountId : String) (one : Progress Op Op.Reply Request Response) : Prop :=
  one.inFlight ∧ (loginUse one).granted = some accountId ∧ (loginUse one).Right platform cfg

/-- The account is locked only while no login with the right PIN is at work on it. -/
def LocksNoRightPin (pool : Pool Op Op.Reply (World σ) Request Response)
    (entry : Entry Op Op.Reply)
    : Prop :=
  ∀ accountId maxAttempts now, entry.call.op = .store (.lockAccount accountId maxAttempts now)
    → ∀ one ∈ pool.progress, ¬RightPinAtWork platform cfg accountId one

variable {platform cfg}

/-- The invariant: while an account is locked, no login with the right PIN is at work. -/
def NoRightPinWhenLocked (platform : Platform) (cfg : Config)
    (pool : Pool Op Op.Reply (World σ) Request Response)
    : Prop :=
  ∀ accountId, AccountLocked pool accountId
    → ∀ one ∈ pool.progress, ¬RightPinAtWork platform cfg accountId one

-----------------------------------------------------------------------------------------
-- One call
-----------------------------------------------------------------------------------------

/-- The request that makes a call: it was in flight, its protocol allowed the call, and the
call is what moves it and the account's guard.
-/
structure LoginStep (platform : Platform) (cfg : Config)
    (pool : Pool Op Op.Reply (World σ) Request Response) (entry : Entry Op Op.Reply)
    (next : Pool Op Op.Reply (World σ) Request Response)
    (one after : Progress Op Op.Reply Request Response)
    : Prop where
  found : pool.progress[entry.thread]? = some one
  replaced : next.progress = pool.progress.set entry.thread after
  flying : one.inFlight
  request : after.request = one.request
  use : loginUse after = (loginUse one).next entry.call.op entry.call.ret
  allowed : (loginMonitor platform cfg).allows (loginUse one) entry.call.op
  finished : ∀ response, after.rest = .pure response
    → (loginUse after).Finished platform cfg response
  guard : ∀ accountId, GuardRun cfg.pinMaxAttempts (pool.world.db.guard accountId)
    (guardEvent accountId entry.call).toList (next.world.db.guard accountId)

/-- Only the load of a credential changes which PIN is right, and a login with an attempt
loads no other credential.
-/
theorem right_of_next {use : LoginUse} {op : Op} {reply : op.Reply} {accountId : String}
    (allowed : (loginMonitor platform cfg).allows use op) (granted : use.granted = some accountId)
    (right : (use.next op reply).Right platform cfg)
    : use.Right platform cfg := by
  cases op with
  | session call => exact right
  | host call => cases call <;> exact right
  | store call =>
      cases call with
      | getActiveCredential account type =>
          obtain ⟨request, loaded, attempt, derivations⟩ := use
          cases request with
          | pinLogin req =>
              have none_ : attempt = none := allowed.2
              exact absurd (none_.symm.trans granted) nofun
          | _ =>
              obtain ⟨_, _, presented, _⟩ := right
              exact absurd presented nofun
      | reserveLoginAttempt => cases reply <;> exact right
      | _ => exact right

variable {entry : Entry Op Op.Reply} {one after : Progress Op Op.Reply Request Response}
  {accountId : String}

/-- A call that means nothing for a guard leaves it alone. -/
theorem LoginStep.guard_eq (step : LoginStep platform cfg pool entry next one after)
    (quiet : guardEvent accountId entry.call = none)
    : next.world.db.guard accountId = pool.world.db.guard accountId := by
  have run := step.guard accountId
  rw [quiet] at run
  exact GuardRun.nil_iff.mp run

/-- A call that means an event for a guard is that event. -/
theorem LoginStep.guard_event (step : LoginStep platform cfg pool entry next one after)
    {event : GuardEvent Millis} (means : guardEvent accountId entry.call = some event)
    : event.Possible cfg.pinMaxAttempts (pool.world.db.guard accountId)
      ∧ next.world.db.guard accountId
        = event.apply cfg.pinMaxAttempts (pool.world.db.guard accountId) := by
  have run := step.guard accountId
  rw [means] at run
  exact GuardRun.single_iff.mp run

/-- A grant needs an open guard and leaves it open. -/
theorem LoginStep.open_of_grant (step : LoginStep platform cfg pool entry next one after)
    (grants : guardEvent accountId entry.call = some .grant)
    : ¬AccountLocked pool accountId ∧ ¬AccountLocked next accountId := by
  obtain ⟨possible, next_eq⟩ := step.guard_event grants
  simp only [AccountLocked, next_eq]
  cases guard : pool.world.db.guard accountId with
  | none => simp [Locked, GuardEvent.apply]
  | some row =>
      rw [guard] at possible
      simp [Locked, GuardEvent.apply, possible.2]

/-- An account that a call locks is locked by the statement for that. -/
theorem LoginStep.locks (step : LoginStep platform cfg pool entry next one after)
    (unlocked : ¬AccountLocked pool accountId) (locked : AccountLocked next accountId)
    : ∃ maxAttempts now, entry.call.op = .store (.lockAccount accountId maxAttempts now) := by
  cases means : guardEvent accountId entry.call with
  | none => exact absurd (by rwa [AccountLocked, ← step.guard_eq means]) unlocked
  | some event =>
      rw [AccountLocked, (step.guard_event means).2] at locked
      obtain ⟨now, rfl⟩ := GuardEvent.eq_lock_of_locks unlocked locked
      obtain ⟨maxAttempts, op_eq⟩ := guardEvent_lock means
      exact ⟨maxAttempts, now, op_eq⟩

/-- A request that gets the right PIN and the attempt together had both before, or is just
being granted the attempt.
-/
theorem LoginStep.right_before (step : LoginStep platform cfg pool entry next one after)
    (granted : (loginUse after).granted = some accountId)
    (right : (loginUse after).Right platform cfg)
    : guardEvent accountId entry.call = some .grant ∨ RightPinAtWork platform cfg accountId one := by
  rw [step.use] at granted right
  rcases loginMonitor_next entry.call.ret step.allowed with
    ⟨_, account, maxAttempts, now, count, _, call_eq, _, _, next_eq⟩ | ⟨_, same, _⟩
  · left
    rw [next_eq] at granted
    rw [show entry.call = ⟨_, _⟩ from call_eq, guardEvent, if_pos (Option.some.inj granted)]
    rfl
  · right
    rw [same] at granted
    exact ⟨step.flying, granted, right_of_next step.allowed granted right⟩

-----------------------------------------------------------------------------------------
-- Every run that locks no right PIN out
-----------------------------------------------------------------------------------------

/-- A call that locks no right PIN out keeps the invariant. -/
theorem NoRightPinWhenLocked.call (kept : NoRightPinWhenLocked platform cfg pool)
    (step : LoginStep platform cfg pool entry next one after)
    (cautious : LocksNoRightPin platform cfg pool entry)
    : NoRightPinWhenLocked platform cfg next := by
  intro accountId locked
  have quiet : ∀ one ∈ pool.progress, ¬RightPinAtWork platform cfg accountId one := by
    by_cases before : AccountLocked pool accountId
    · exact kept accountId before
    · obtain ⟨maxAttempts, now, op_eq⟩ := step.locks before locked
      exact cautious accountId maxAttempts now op_eq
  intro other member atWork
  rw [step.replaced] at member
  rcases List.mem_or_eq_of_mem_set member with old | rfl
  · exact quiet other old atWork
  · obtain ⟨_, granted, right⟩ := atWork
    rcases step.right_before granted right with grants | before
    · exact (step.open_of_grant grants).2 locked
    · exact quiet one (List.mem_of_getElem? step.found) before

open Sample

end WorkersAuth.DeviceAuth

import WorkersAuth.DeviceAuth.Deployment
import Mathlib.Algebra.Order.BigOperators.Group.List
import WorkersAuth.DeviceAuth.LoginGuard

/-! How many PIN attempts an account gives away, over any interleaving.
The log of a run is a run of the account's lockout guard, and every login that derives a PIN
holds one of the attempts granted there.
-/

namespace WorkersAuth.DeviceAuth

open Atomic Counters

variable {platform : Platform} {cfg : Config} {σ : Type}
  {sessions : Semantics SessionCall SessionCall.Reply σ} {world : World σ}
  {pool : Pool Op Op.Reply (World σ) Request Response}

/-- What one request has done about a PIN, as its own calls tell. -/
def loginUse (one : Progress Op Op.Reply Request Response) : LoginUse :=
  one.history.foldl (fun use call => use.next call.op call.ret) { request := one.request }

/-- The ghost state knows its request, by induction on the history. -/
@[simp] theorem loginUse_request (one : Progress Op Op.Reply Request Response)
    : (loginUse one).request = one.request := by
  suffices ∀ use : LoginUse, (one.history.foldl (fun use call => use.next call.op call.ret) use).request
      = use.request from this _
  intro use
  induction one.history generalizing use with
  | nil => rfl
  | cons call rest ih => exact (ih _).trans (LoginUse.next_request use call.op call.ret)

theorem loginMonitor_faithful
    : (deviceAuth platform cfg sessions).Faithful (loginMonitor platform cfg) := by
  intro op before reply after executes
  cases op with
  | host call => exact executes.1
  | session call | store call => trivial

-----------------------------------------------------------------------------------------
-- The guard of an account
-----------------------------------------------------------------------------------------

/-- One more call is its event for the guard, if it is one. -/
theorem guardEvents_append (accountId : String) (log : List (Entry Op Op.Reply))
    (entry : Entry Op Op.Reply)
    : guardEvents accountId (log ++ [entry])
      = guardEvents accountId log ++ (guardEvent accountId entry.call).toList := by
  simp only [guardEvents, List.filterMap_append, List.filterMap_cons, List.filterMap_nil]
  cases guardEvent accountId entry.call <;> rfl

/-- The log of a reachable state is a run of every account's guard, by the invariant rule. -/
theorem reachable_guardRun (reach : (deviceAuth platform cfg sessions).Reachable world pool)
    (accountId : String)
    : GuardRun cfg.pinMaxAttempts (world.db.guard accountId) (guardEvents accountId pool.log)
        (pool.world.db.guard accountId) := by
  refine reach.invariant loginMonitor_faithful handle_login
    (fun current _ log => GuardRun cfg.pinMaxAttempts (world.db.guard accountId)
      (guardEvents accountId log) (current.db.guard accountId))
    .nil (fun _ _ _ _ run => run) ?_
  intro current uses log index use op reply after _ allowed executes run
  rw [guardEvents_append]
  exact run.append (exec_guard executes allowed.1 accountId)

/-- Every guard row is within the limit, and locked only at it. -/
def GuardsSound (max : Nat) (db : Database) : Prop :=
  ∀ row ∈ db.guards.rows, row.failedCount ≤ max ∧ (row.lockedAt.isSome → row.failedCount = max)

theorem guardsSound_iff {max : Nat} {db : Database}
    : GuardsSound max db ↔ ∀ accountId, ∀ guard ∈ db.guard accountId, guard.Sound max := by
  constructor
  · rintro sound accountId guard present
    obtain ⟨row, found, rfl⟩ := Option.map_eq_some_iff.mp present
    exact sound row (List.mem_of_find?_eq_some found)
  · intro sound row stored
    exact sound row.accountId ⟨row.failedCount, row.lockedAt⟩
      (by rw [Database.guard, Tables.Table.mem_rows_iff.mp stored]; rfl)

-----------------------------------------------------------------------------------------
-- The logins that hold an attempt
-----------------------------------------------------------------------------------------

/-- An attempt granted by the account's guard. -/
def LoginUse.holdsAttempt (use : LoginUse) (accountId : String) : Bool :=
  use.granted = some accountId

/-- Only logins hold attempts; a login derives only with one, and at most twice. -/
structure LoginUse.Economical (use : LoginUse) : Prop where
  login : use.granted.isSome → ∃ req, use.request = .pinLogin req
  derives : ∀ req, use.request = .pinLogin req → use.derivations ≠ 0 → use.granted.isSome
  twice : use.granted.isSome → use.derivations ≤ 2

/-- What a call of a request that keeps to the protocol does to its attempt: a grant gives a
login its only one, a derivation needs it, and every other call leaves both as they are.
-/
theorem loginMonitor_next {use : LoginUse} {op : Op} (reply : op.Reply)
    (allowed : (loginMonitor platform cfg).allows use op)
    : (∃ req account maxAttempts now count,
        use.request = .pinLogin req
        ∧ (⟨op, reply⟩ : Call Op Op.Reply)
          = ⟨.store (.reserveLoginAttempt account maxAttempts now), some count⟩
        ∧ use.granted = none ∧ use.derivations = 0
        ∧ use.next op reply = { use with granted := some account })
      ∨ ((∀ accountId, guardEvent accountId ⟨op, reply⟩ ≠ some .grant)
        ∧ (use.next op reply).granted = use.granted
        ∧ ((use.next op reply).derivations = use.derivations
          ∨ (use.next op reply).derivations = use.derivations + 1
            ∧ ∀ req, use.request = .pinLogin req → use.granted.isSome ∧ use.derivations ≤ 1)) := by
  cases op with
  | session call => exact .inr ⟨fun accountId => by simp [guardEvent], rfl, .inl rfl⟩
  | host call =>
      cases call with
      | derive pin pepperKey salt iterations =>
          refine .inr ⟨fun accountId => by simp [guardEvent], rfl, .inr ⟨rfl, fun req logs => ?_⟩⟩
          have login := allowed.2
          rw [logs] at login
          exact ⟨login.1, by rcases login.2 with zero | one <;> omega⟩
      | _ => exact .inr ⟨fun accountId => by simp [guardEvent], rfl, .inl rfl⟩
  | store call =>
      cases call with
      | reserveLoginAttempt account maxAttempts now =>
          cases reply with
          | none => exact .inr ⟨fun accountId => by simp [guardEvent], rfl, .inl rfl⟩
          | some count =>
              have login := allowed.2
              obtain ⟨request, loaded, granted, derivations⟩ := use
              cases request with
              | pinLogin req =>
                  exact .inl ⟨req, account, maxAttempts, now, count, rfl, rfl, login.1, login.2, rfl⟩
              | _ => exact login.elim
      | lockAccount | resetLoginGuard | replaceCredential =>
          exact .inr ⟨fun accountId => by simp [guardEvent], rfl, .inl rfl⟩
      | _ => exact .inr ⟨fun accountId => by simp [guardEvent], rfl, .inl rfl⟩

/-- Every grant in the log is held by one request. -/
theorem reachable_holders (reach : (deviceAuth platform cfg sessions).Reachable world pool)
    (accountId : String)
    : (pool.progress.map loginUse).countP (·.holdsAttempt accountId)
      = (guardEvents accountId pool.log).count .grant := by
  refine reach.invariant loginMonitor_faithful handle_login
    (fun _ uses log => uses.countP (·.holdsAttempt accountId)
      = (guardEvents accountId log).count .grant)
    rfl ?_ ?_
  · intro _ uses log request counted
    rw [List.countP_append, counted]
    rfl
  · intro _ uses log index use op reply after found allowed _ counted
    have moved := countP_ghosts_set found (use.next op reply) (·.holdsAttempt accountId)
    rw [guardEvents_append, List.count_append, ← counted]
    rcases loginMonitor_next reply allowed with
      ⟨_, account, maxAttempts, now, count, _, call_eq, free, _, next_eq⟩ | ⟨noGrant, same, _⟩
    · cases call_eq
      simp only [LoginUse.holdsAttempt, loginMonitor, next_eq, free, guardEvent] at moved ⊢
      by_cases same : account = accountId <;> simp_all
    · have noEvent : (guardEvent accountId ⟨op, reply⟩).toList.count .grant = 0 := by
        rw [List.count_eq_zero, Option.mem_toList]
        exact noGrant accountId
      simp only [LoginUse.holdsAttempt, loginMonitor, same] at moved ⊢
      rw [noEvent]
      exact Nat.add_right_cancel moved

/-- Every login is economical in every reachable state. -/
theorem reachable_economical (reach : (deviceAuth platform cfg sessions).Reachable world pool)
    : ∀ use ∈ pool.progress.map loginUse, use.Economical := by
  refine reach.invariant loginMonitor_faithful handle_login
    (fun _ uses _ => ∀ use ∈ uses, use.Economical) (by simp) ?_ ?_
  · intro _ uses _ request kept use member
    rcases List.mem_append.mp member with old | new
    · exact kept use old
    · cases List.mem_singleton.mp new
      exact ⟨nofun, fun _ _ derived => absurd rfl derived, nofun⟩
  · intro _ uses _ index use op reply after found allowed _ kept one member
    rcases List.mem_or_eq_of_mem_set member with old | rfl
    · exact kept one old
    obtain ⟨login, derives, twice⟩ := kept use (List.mem_of_getElem? found)
    have request := LoginUse.next_request use op reply
    rcases loginMonitor_next reply allowed with
      ⟨req, account, _, _, _, logs, _, _, none_, next_eq⟩ | ⟨_, same, fewer | ⟨more, derived⟩⟩
    · simp only [loginMonitor, next_eq]
      exact ⟨fun _ => ⟨req, logs⟩, fun _ _ _ => rfl, fun _ => by simp [none_]⟩
    · refine ⟨?_, ?_, ?_⟩ <;> simp only [loginMonitor, request, same, fewer]
      · exact login
      · exact derives
      · exact twice
    · refine ⟨?_, ?_, ?_⟩ <;> simp only [loginMonitor, request, same, more]
      · exact login
      · exact fun req logs _ => (derived req logs).1
      · intro granted
        obtain ⟨req, logs⟩ := login granted
        have := (derived req logs).2
        omega

-----------------------------------------------------------------------------------------
-- The bounds
-----------------------------------------------------------------------------------------

/-- A login of the account that has checked its PIN: it holds an attempt and has derived. -/
def checkedPin (accountId : String) (one : Progress Op Op.Reply Request Response) : Bool :=
  (loginUse one).holdsAttempt accountId && (loginUse one).derivations ≠ 0

/-- The derivations made by the logins of an account. -/
def loginDerivations (accountId : String) (pool : Pool Op Op.Reply (World σ) Request Response) : Nat :=
  ((pool.progress.map loginUse).filter (·.holdsAttempt accountId)).map (·.derivations) |>.sum

/-- The attempts of an account, in every reachable state of any interleaving. Guard rows
stay within the limit and are locked only at it; between two resets at most the maximum
is granted; a PIN is derived for a login only after a grant; and over the whole run the
PINs checked are at most the maximum for each reset and once more. A login derives a
second time only to enrol a right PIN again, so all derivations are at most twice that.
-/
theorem pinAttempts_bounded (sound : GuardsSound cfg.pinMaxAttempts world.db)
    (reach : (deviceAuth platform cfg sessions).Reachable world pool)
    : GuardsSound cfg.pinMaxAttempts pool.world.db
      ∧ (∀ accountId earlier between later,
          pool.log = earlier ++ between ++ later
          → .reset ∉ guardEvents accountId between
          → (guardEvents accountId between).count .grant ≤ cfg.pinMaxAttempts)
      ∧ (∀ one ∈ pool.progress, ∀ req,
          one.request = .pinLogin req
          → (loginUse one).derivations ≠ 0
          → (loginUse one).granted.isSome)
      ∧ ∀ accountId,
          let resets := (guardEvents accountId pool.log).count .reset
          pool.progress.countP (checkedPin accountId) ≤ cfg.pinMaxAttempts * (resets + 1)
          ∧ loginDerivations accountId pool ≤ 2 * (cfg.pinMaxAttempts * (resets + 1)) := by
  have guards := guardsSound_iff.mp sound
  refine ⟨?_, ?_, ?_, ?_⟩
  · refine guardsSound_iff.mpr (fun accountId => ?_)
    exact (reachable_guardRun reach accountId).sound cfg.pinMaxAttempts_pos (guards accountId)
  · intro accountId earlier between later split noReset
    have run := reachable_guardRun reach accountId
    rw [split, guardEvents, List.filterMap_append, List.filterMap_append] at run
    obtain ⟨second, front, _⟩ := run.of_append
    obtain ⟨first, start, middle⟩ := front.of_append
    exact middle.grants_le cfg.pinMaxAttempts_pos
      (start.sound cfg.pinMaxAttempts_pos (guards accountId)) noReset
  · intro one member req logs derived
    exact (reachable_economical reach _ (List.mem_map_of_mem member)).derives req
      ((loginUse_request one).trans logs) derived
  · intro accountId resets
    have granted := (reachable_guardRun reach accountId).grants_le_mul cfg.pinMaxAttempts_pos
      (guards accountId)
    rw [← reachable_holders reach] at granted
    refine ⟨le_trans ?_ granted, le_trans ?_ (Nat.mul_le_mul_left 2 granted)⟩
    · rw [List.countP_map]
      exact List.countP_mono_left (fun one _ checked => (Bool.and_eq_true_iff.mp checked).1)
    · rw [List.countP_eq_length_filter, Nat.mul_comm 2, loginDerivations]
      refine (List.sum_le_card_nsmul _ 2 ?_).trans (by simp)
      intro count member
      obtain ⟨use, selected, rfl⟩ := List.mem_map.mp member
      obtain ⟨present, holds⟩ := List.mem_filter.mp selected
      refine (reachable_economical reach use present).twice ?_
      rw [of_decide_eq_true holds]
      rfl

-----------------------------------------------------------------------------------------
-- Played runs
-----------------------------------------------------------------------------------------

open Sample

/-- One wrong PIN and one right one, up to its reset: two PINs checked, with one reset. -/
theorem pinAttempts_bounded_played
    : ∃ state, service.Reachable enrolled state
        ∧ (state.progress.countP (checkedPin "user_42") = 2
          ∧ (guardEvents "user_42" state.log).count .reset = 1)
        ∧ state.progress.countP (checkedPin "user_42")
          ≤ 2 * ((guardEvents "user_42" state.log).count .reset + 1) := by
  obtain ⟨state, reach, holds⟩ := exists_played enrolled
    (.arrive (loginRequest wrongPin) :: calls 1000 0 6
      ++ .arrive (loginRequest pin) :: calls 2000 1 6)
    (fun state => state.progress.countP (checkedPin "user_42") = 2
      && (guardEvents "user_42" state.log).count .reset = 1)
    (by decide +kernel)
  obtain ⟨checked, resets⟩ := (Bool.and_eq_true ..).mp holds
  have bounded := pinAttempts_bounded (by exact List.forall_mem_nil _) reach
  exact ⟨state, reach, ⟨of_decide_eq_true checked, of_decide_eq_true resets⟩,
    (bounded.2.2.2 "user_42").1⟩

/-- Two logins with the right PIN of a credential enrolled at an earlier cost derive it twice
each, before any reset.
-/
theorem loginDerivations_twice
    : ∃ state, service.Reachable enrolledEarlier state
        ∧ ¬(loginDerivations "user_42" state
          ≤ 2 * ((guardEvents "user_42" state.log).count .reset + 1)) := by
  obtain ⟨state, reach, exceeds⟩ := exists_played enrolledEarlier
    ([.arrive (loginRequest pin), .arrive (loginRequest pin)]
      ++ calls 1000 0 5 ++ calls 1000 1 5 ++ [0, 1, 0, 1].map (.perform · { now := 1000, seed := 0x30 }))
    (fun state => 2 * ((guardEvents "user_42" state.log).count .reset + 1)
      < loginDerivations "user_42" state)
    (by decide +kernel)
  exact ⟨state, reach, Nat.not_le.mpr (of_decide_eq_true exceeds)⟩

end WorkersAuth.DeviceAuth

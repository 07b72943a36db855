import WorkersAuth.Counters.Lockout
import WorkersAuth.DeviceAuth.Footprint
import WorkersAuth.DeviceAuth.Frame

/-! The login guard of an account under concurrent PIN logins.
Every statement on a guard row is one event of a lockout guard, so the log of any
interleaving is a run of that guard. What a login may do to the row, and what a right or a
wrong PIN allows it to do, is the protocol its calls obey.
-/

namespace WorkersAuth

open Atomic Counters DeviceAuth

-----------------------------------------------------------------------------------------
-- Guard rows as lockout guards
-----------------------------------------------------------------------------------------

/-- The guard an account's row holds. -/
def DeviceAuth.Database.guard (db : Database) (accountId : String) : Option (Guard Millis) :=
  (db.guards.find accountId).map (fun row => ⟨row.failedCount, row.lockedAt⟩)

/-- What a call means for the guard of an account. -/
def guardEvent (accountId : String) : Call Op Op.Reply → Option (GuardEvent Millis)
  | ⟨.store (.reserveLoginAttempt account ..), granted⟩ =>
      if account = accountId then some (if granted.isSome then .grant else .refuse) else none
  | ⟨.store (.lockAccount account _ now), _⟩ =>
      if account = accountId then some (.lock now) else none
  | ⟨.store (.resetLoginGuard account _), _⟩ => if account = accountId then some .reset else none
  | ⟨.store (.replaceCredential record options), _⟩ =>
      if record.accountId = accountId ∧ options.resetLoginGuard then some .reset else none
  | _ => none

/-- Only locking an account means a lock of its guard, by cases on the call. -/
theorem guardEvent_lock {accountId : String} {call : Call Op Op.Reply} {now : Millis}
    (means : guardEvent accountId call = some (.lock now))
    : ∃ maxAttempts, call.op = .store (.lockAccount accountId maxAttempts now) := by
  obtain ⟨op, reply⟩ := call
  cases op with
  | session call => exact absurd means nofun
  | host call => exact absurd means nofun
  | store call =>
      cases call with
      | lockAccount account maxAttempts moment =>
          simp only [guardEvent, Option.ite_none_right_eq_some, Option.some.injEq,
            GuardEvent.lock.injEq] at means
          obtain ⟨rfl, rfl⟩ := means
          exact ⟨maxAttempts, rfl⟩
      | reserveLoginAttempt account maxAttempts moment =>
          cases reply <;> simp [guardEvent] at means
      | resetLoginGuard | replaceCredential => simp [guardEvent] at means
      | _ => exact absurd means nofun

/-- What the log says happened to the guard of an account, oldest first. -/
def guardEvents (accountId : String) (log : List (Entry Op Op.Reply)) : List (GuardEvent Millis) :=
  log.filterMap (fun entry => guardEvent accountId entry.call)

/-- The statements on guards use the configured maximum. -/
def Op.UsesLimit (max : Nat) : Op → Prop
  | .store (.reserveLoginAttempt _ maxAttempts _) => maxAttempts = max
  | .store (.lockAccount _ maxAttempts _) => maxAttempts = max
  | _ => True

section Statements

variable (db : Database) (accountId other : String) (max : Nat) (now : Millis)

/-- Clearing a guard resets it and no other. -/
theorem guard_clearGuard
    : (db.clearGuard accountId now).guard other
      = if other = accountId then GuardEvent.reset.apply max (db.guard other)
        else db.guard other := by
  simp only [Database.guard, Database.clearGuard, Tables.Table.find_updateWhere]
  cases found : db.guards.find other with
  | none => simp [GuardEvent.apply]
  | some row =>
      simp only [Option.map_some, Tables.Table.key_of_find found, GuardEvent.apply]
      by_cases same : other = accountId <;> simp [same]

/-- Locking an account locks its guard, if its attempts are used up, and no other. -/
theorem guard_lockAccount
    : (db.lockAccount accountId max now).guard other
      = if other = accountId then (GuardEvent.lock now).apply max (db.guard other)
        else db.guard other := by
  simp only [Database.guard, Database.lockAccount, Tables.Table.find_updateWhere]
  cases found : db.guards.find other with
  | none => simp [GuardEvent.apply]
  | some row =>
      simp only [Option.map_some, Tables.Table.key_of_find found, GuardEvent.apply]
      by_cases same : other = accountId
      · by_cases full : max ≤ row.failedCount <;> simp [same, full]
      · simp [same]

/-- A reservation is granted by an open guard with attempts left, and by that guard alone. -/
theorem guard_reserveLoginAttempt
    : let result := db.reserveLoginAttempt accountId max now
      (result.1.isSome → GuardEvent.grant.Possible max (db.guard accountId))
      ∧ result.2.guard other
        = if other = accountId ∧ result.1.isSome then GuardEvent.grant.apply max (db.guard other)
          else db.guard other := by
  have reply_eq : (db.reserveLoginAttempt accountId max now).1
      = (db.guards.upsertReturning ⟨accountId, 1, none, now⟩
          (fun row => row.failedCount < max && row.lockedAt.isNone)
          (fun row => { row with failedCount := row.failedCount + 1, updatedAt := now })).1.map
        (·.failedCount) := rfl
  have after_eq : (db.reserveLoginAttempt accountId max now).2.guards
      = (db.guards.upsertReturning ⟨accountId, 1, none, now⟩
          (fun row => row.failedCount < max && row.lockedAt.isNone)
          (fun row => { row with failedCount := row.failedCount + 1, updatedAt := now })).2 := rfl
  simp only [reply_eq, Database.guard, after_eq, Tables.Table.upsertReturning_fst,
    Tables.Table.find_upsertReturning]
  by_cases same : other = accountId
  · subst same
    cases found : db.guards.find other with
    | none => simp [GuardEvent.Possible, GuardEvent.apply]
    | some row =>
        by_cases open_ : row.failedCount < max ∧ row.lockedAt = none
        · simp [GuardEvent.Possible, GuardEvent.apply, open_]
        · simp only [Option.all_some, Bool.and_eq_true, decide_eq_true_eq, Option.isNone_iff_eq_none,
            open_]
          simp
  · cases found : db.guards.find accountId with
    | none => simp [GuardEvent.Possible, same]
    | some row =>
        by_cases open_ : row.failedCount < max ∧ row.lockedAt = none
        · simp [GuardEvent.Possible, same, open_]
        · simp only [Option.all_some, Bool.and_eq_true, decide_eq_true_eq, Option.isNone_iff_eq_none,
            open_]
          simp

end Statements

/-- A statement that acts as one event on the guards it selects is a run of each guard. -/
theorem guardRun_of_event {before after : Option (Guard Millis)} {event : GuardEvent Millis}
    {max : Nat} {selected : Prop} [Decidable selected] (possible : selected → event.Possible max before)
    (after_eq : after = if selected then event.apply max before else before)
    : GuardRun max before (if selected then some event else none).toList after := by
  subst after_eq
  split
  · next chosen => exact .single (possible chosen)
  · exact .nil

/-- Every call is the event it means for the guard, or leaves the guard alone; by cases on
the call.
-/
theorem exec_guard {σ : Type} {platform : Platform}
    {sessions : Semantics SessionCall SessionCall.Reply σ} {world after : World σ} {op : Op}
    {reply : op.Reply} {max : Nat} (executes : exec platform sessions op world reply after)
    (limit : op.UsesLimit max) (accountId : String)
    : GuardRun max (world.db.guard accountId) (guardEvent accountId ⟨op, reply⟩).toList
        (after.db.guard accountId) := by
  cases op with
  | session call => exact executes.2 ▸ .nil
  | host call => exact executes.2 ▸ .nil
  | store call =>
      have ran := executes.1
      have untouched (frame : ¬call.writes .guards)
          : after.db.guard accountId = world.db.guard accountId := by
        rw [Database.guard, StoreCall.guards_eq ran frame, Database.guard]
      cases call with
      | reserveLoginAttempt account maxAttempts now =>
          obtain rfl : maxAttempts = max := limit
          obtain ⟨possible, after_eq⟩ :=
            guard_reserveLoginAttempt world.db account accountId maxAttempts now
          rw [show world.db.reserveLoginAttempt account maxAttempts now = (reply, after.db) from
            Option.some.inj ran] at possible after_eq
          rw [after_eq]
          cases reply with
          | none => 
              simp only [guardEvent, Option.isSome_none, Bool.false_eq_true, and_false, if_false]
              split
              · exact .single trivial
              · exact .nil
          | some failedCount =>
              refine guardRun_of_event (fun same => same ▸ possible rfl) ?_
              simp only [Option.isSome_some, and_true, if_true, eq_comm]
      | lockAccount account maxAttempts now =>
          obtain rfl : maxAttempts = max := limit
          have after_eq : world.db.lockAccount account maxAttempts now = after.db :=
            congrArg Prod.snd (Option.some.inj ran)
          refine guardRun_of_event (fun _ => by simp [GuardEvent.Possible]) ?_
          rw [← after_eq, guard_lockAccount]
          simp only [eq_comm]
      | resetLoginGuard account now =>
          have after_eq : world.db.clearGuard account now = after.db :=
            congrArg Prod.snd (Option.some.inj ran)
          refine guardRun_of_event (fun _ => by simp [GuardEvent.Possible]) ?_
          rw [← after_eq, guard_clearGuard _ _ _ max]
          simp only [eq_comm]
      | replaceCredential record options =>
          have after_eq := (replaceCredential_frame ran).2.2
          refine guardRun_of_event (fun _ => by simp [GuardEvent.Possible]) ?_
          rw [Database.guard, after_eq]
          by_cases resets : options.resetLoginGuard
          · simp only [resets, if_true, and_true]
            exact (guard_clearGuard _ _ _ max _).trans (by simp only [eq_comm])
          · simp only [resets, and_false, if_false, Bool.false_eq_true]
            rfl
      | _ => exact untouched not_false ▸ .nil

namespace DeviceAuth

variable (platform : Platform) (cfg : Config)

-----------------------------------------------------------------------------------------
-- What a request has done about a PIN
-----------------------------------------------------------------------------------------

/-- The material of the credential a request has loaded, the account whose guard granted it
an attempt, and how many PIN derivations it has made.
-/
structure LoginUse where
  request : Request
  loaded : Option JsonObject := none
  granted : Option String := none
  derivations : Nat := 0

def LoginUse.next (use : LoginUse) : (op : Op) → op.Reply → LoginUse
  | .store (.getActiveCredential ..), credential =>
      { use with loaded := credential.map (·.material) }
  | .store (.reserveLoginAttempt account ..), some _ => { use with granted := some account }
  | .host (.derive ..), _ => { use with derivations := use.derivations + 1 }
  | _, _ => use

/-- The PIN a login presents. -/
def presentedPin : Request → Option String
  | .pinLogin req => isPinFormat (req.field "pin")
  | _ => none

/-- The login presents the PIN of the credential it has loaded. -/
def LoginUse.Right (use : LoginUse) : Prop :=
  ∃ pin material, presentedPin use.request = some pin ∧ use.loaded = some material
    ∧ PinMatches platform (cfg.keys platform) pin material

instance (use : LoginUse) : Decidable (use.Right platform cfg) :=
  decidable_of_iff
    (∃ pin ∈ presentedPin use.request, ∃ material ∈ use.loaded,
      PinMatches platform (cfg.keys platform) pin material)
    (by simp [LoginUse.Right])

/-- The protocol of a guard. A login gets one attempt and derives only after it, once, and
once more when the PIN was right; it locks the account only after a wrong PIN and clears
its guard only after a right one. Besides, a verified code and a new PIN clear guards.
-/
def loginMonitor : Monitor Op Op.Reply LoginUse where
  allows use op := op.UsesLimit cfg.pinMaxAttempts ∧
    match use.request, op with
    | .pinLogin _, .store (.getActiveCredential ..) => use.granted = none
    | .pinLogin _, .store (.reserveLoginAttempt ..) => use.granted = none ∧ use.derivations = 0
    | .pinLogin _, .store (.lockAccount account ..) =>
        use.granted = some account ∧ ¬use.Right platform cfg
    | .pinLogin _, .store (.resetLoginGuard account _) =>
        use.granted = some account ∧ use.Right platform cfg
    | .pinLogin _, .host (.derive ..) =>
        use.granted.isSome
        ∧ (use.derivations = 0 ∨ use.derivations = 1 ∧ use.Right platform cfg)
    | .emailVerify _, .store (.resetLoginGuard ..) => True
    | .setPin _, .store (.replaceCredential ..) => True
    | _, .store (.reserveLoginAttempt ..) => False
    | _, .store (.lockAccount ..) => False
    | _, .store (.resetLoginGuard ..) => False
    | _, .store (.replaceCredential ..) => False
    | _, _ => True
  next := LoginUse.next
  possible
    | .host call, reply => call.Answers platform reply
    | _, _ => True

/-- A login that answers 200 was granted an attempt and presented the right PIN. -/
def LoginUse.Finished (use : LoginUse) (response : Response) : Prop :=
  ∀ req, use.request = .pinLogin req → response.status = 200
    → use.granted.isSome ∧ use.Right platform cfg

variable {platform cfg}

@[simp] theorem LoginUse.next_request (use : LoginUse) (op : Op) (reply : op.Reply)
    : (use.next op reply).request = use.request := by
  cases op with
  | session call => rfl
  | host call => cases call <;> rfl
  | store call =>
      cases call with
      | reserveLoginAttempt => cases reply <;> rfl
      | _ => rfl

/-- The routes other than the PIN login touch guards only as their protocol says. -/
theorem others_login {request : Request} (other : ∀ req, request ≠ .pinLogin req)
    : (handle platform cfg request).Obeys (loginMonitor platform cfg)
        (LoginUse.Finished platform cfg) { request } := by
  refine ((handle_within platform cfg request).obeys_keeps
    (fun use => use.request = request) ?_ rfl).mono ?_
  · rintro use op rfl allowed
    refine ⟨?_, fun reply => LoginUse.next_request use op reply⟩
    obtain ⟨request, loaded, granted, derivations⟩ := use
    cases op with
    | session call => cases request <;> exact ⟨trivial, trivial⟩
    | host call =>
        cases request <;> cases call <;>
          first | exact ⟨trivial, trivial⟩ | exact allowed.elim | exact absurd rfl (other _)
    | store call =>
        cases request <;> cases call <;>
          first | exact ⟨trivial, trivial⟩ | exact allowed.elim | exact absurd rfl (other _)
  · rintro use response rfl req same
    exact absurd same (other req)

/-- The rule for verifying a PIN: what is `bad` holds after a wrong one, what is `good` after
the right one, once the derivation and the enrolment keep them.
-/
theorem pinVerify_obeys {τ : Type} {monitor : Monitor Op Op.Reply τ} {state : τ} {pin : String}
    {material : JsonObject} (bad good : τ → Prop)
    (answers : ∀ call reply, monitor.possible (.host call) reply → call.Answers platform reply)
    (wrong : ¬PinMatches platform (cfg.keys platform) pin material → bad state)
    (derive : ∀ pepperKey salt iterations actual,
      let op := Op.host (.derive pin pepperKey salt iterations)
      monitor.allows state op
      ∧ (¬PinMatches platform (cfg.keys platform) pin material → bad (monitor.next state op actual))
      ∧ (PinMatches platform (cfg.keys platform) pin material
        → good (monitor.next state op actual)
          ∧ (enroll platform cfg.pinIterations pin (cfg.keys platform)).Obeys monitor
              (fun after _ => good after) (monitor.next state op actual)))
    : (pinVerify platform cfg.pinIterations pin material (cfg.keys platform)).Obeys monitor
        (fun after result => (result = some .refused → bad after)
          ∧ ∀ upgraded, result = some (.ok upgraded) → good after) state := by
  unfold pinVerify
  split
  · next unreadable => exact ⟨fun _ => wrong (not_pinMatches_of_unreadable unreadable), by simp⟩
  next stored read =>
  split
  · next unknown => exact ⟨fun _ => wrong (not_pinMatches_of_unknown read unknown), by simp⟩
  next derived known =>
  split
  case h_2 => exact ⟨by simp, by simp⟩
  next expected salt hash_eq salt_eq =>
  refine .perform (derive derived.pepperKey salt stored.iterations none).1 (fun actual possible => ?_)
  obtain ⟨_, mismatch, hit⟩ := derive derived.pepperKey salt stored.iterations actual
  have derives : actual = platform.pbkdf2 (platform.hmac derived.pepperKey pin) salt stored.iterations :=
    answers _ _ possible
  have iff := pinMatches_iff pin read known salt_eq hash_eq
  cases actual with
  | none => exact ⟨by simp, by simp⟩
  | some actual =>
      simp only
      split
      · next different =>
          simp only [Bool.not_eq_true', ← Bool.not_eq_true, timingSafeEqualBytes_iff] at different
          refine ⟨fun _ => mismatch (fun matching => ?_), by simp⟩
          exact different (Option.some.inj (derives.trans (iff.mp matching)))
      next same =>
      have matching : PinMatches platform (cfg.keys platform) pin material := by
        rw [iff, ← derives]
        simpa using same
      split
      · refine (hit matching).2.bind (fun after enrolled kept => ?_)
        cases enrolled with
        | none => exact ⟨by simp, by simp⟩
        | some upgraded => exact ⟨by simp, fun _ _ => kept⟩
      · exact ⟨by simp, fun _ _ => (hit matching).1⟩

/-- Verifying a PIN tells whether it is the right one, and derives accordingly. -/
theorem pinVerify_login {use : LoginUse} {req : HttpRequest} {pin account : String}
    {material : JsonObject} (request : use.request = .pinLogin req)
    (presented : isPinFormat (req.field "pin") = some pin) (loaded : use.loaded = some material)
    (granted : use.granted = some account) (first : use.derivations = 0)
    : (pinVerify platform cfg.pinIterations pin material (cfg.keys platform)).Obeys
        (loginMonitor platform cfg)
        (fun after result =>
          (result = some .refused
            → after.request = .pinLogin req ∧ after.granted = some account
              ∧ ¬after.Right platform cfg)
          ∧ ∀ upgraded, result = some (.ok upgraded)
            → after.request = .pinLogin req ∧ after.granted = some account
              ∧ after.Right platform cfg) use := by
  have right_iff (derivations : Nat)
      : LoginUse.Right platform cfg { use with derivations }
        ↔ PinMatches platform (cfg.keys platform) pin material := by
    simp [LoginUse.Right, presentedPin, request, presented, loaded]
  refine pinVerify_obeys _ _ (fun _ _ possible => possible)
    (fun wrong => ⟨request, granted, (right_iff use.derivations).not.mpr wrong⟩)
    (fun pepperKey salt iterations actual => ⟨⟨trivial, ?_⟩, ?_, ?_⟩)
  · simp [request, granted, first]
  · exact fun wrong => ⟨request, granted, (right_iff _).not.mpr wrong⟩
  · intro matching
    have right (derivations : Nat) := (right_iff derivations).mpr matching
    refine ⟨⟨request, granted, right _⟩, ?_⟩
    unfold enroll
    refine .perform ⟨trivial, by simp [request, loginMonitor, LoginUse.next]⟩ (fun salt _ => ?_)
    refine .perform ⟨trivial, ?_⟩ (fun hash _ => ?_)
    · simpa [loginMonitor, LoginUse.next, request, granted, first] using right 1
    · cases hash <;> exact ⟨request, granted, right _⟩

variable (platform cfg) in
/-- Nothing a login does before the credential or after the clearing concerns the guard. -/
theorem loginMonitor_ignores (use : LoginUse) {ops : Op → Prop}
    (quiet : ∀ op, ops op → preludeCalls false op ∨ signInCalls op)
    : (loginMonitor platform cfg).Ignores use ops := by
  obtain ⟨request, loaded, granted, derivations⟩ := use
  intro op allowed
  have allowed := quiet op allowed
  cases op with
  | session call => cases request <;> exact ⟨⟨trivial, trivial⟩, fun _ => rfl⟩
  | host call =>
      cases call with
      | derive => exact allowed.elim False.elim False.elim
      | _ => cases request <;> exact ⟨⟨trivial, trivial⟩, fun _ => rfl⟩
  | store call =>
      cases call <;>
        first
        | exact allowed.elim False.elim False.elim
        | (cases request <;> exact ⟨⟨trivial, trivial⟩, fun _ => rfl⟩)

/-- From the right PIN on, the guard is cleared once and nothing else concerns it. -/
theorem pinVerified_login {use : LoginUse} {req : HttpRequest} {device : DeviceRecord}
    {credential : CredentialRecord} {upgraded : Option JsonObject} {now : Millis}
    (request : use.request = .pinLogin req) (granted : use.granted = some device.accountId)
    (right : use.Right platform cfg)
    : (pinVerified platform cfg req device credential upgraded now).Obeys
        (loginMonitor platform cfg) (LoginUse.Finished platform cfg) use := by
  refine .perform ⟨trivial, ?_⟩ (fun _ _ => ?_)
  · simpa only [request] using And.intro granted right
  · refine ((signIn_within ..).obeys (loginMonitor_ignores platform cfg _ (fun _ allowed => .inr allowed))).mono ?_
    rintro _ response rfl _ _ _
    exact ⟨Option.isSome_iff_exists.mpr ⟨_, granted⟩, right⟩

/-- From the loaded credential on, the login keeps to its protocol. -/
theorem attemptPin_login {req : HttpRequest} {pin : String} {device : DeviceRecord} {now : Millis}
    (presented : isPinFormat (req.field "pin") = some pin)
    : (attemptPin platform cfg req pin device now).Obeys (loginMonitor platform cfg)
        (LoginUse.Finished platform cfg) { request := .pinLogin req } := by
  have refused (use : LoginUse) {response : Response} (refusal : Refusal response)
      : use.Finished platform cfg response :=
    fun _ _ success => absurd success refusal
  have required : Refusal emailVerificationRequired := by decide
  refine .perform ⟨trivial, rfl⟩ (fun credential _ => ?_)
  cases credential with
  | none => exact .perform ⟨trivial, trivial⟩ (fun _ _ => refused _ required)
  | some credential =>
      refine .perform ⟨rfl, rfl, rfl⟩ (fun reserved _ => ?_)
      cases reserved with
      | none => exact .perform ⟨trivial, trivial⟩ (fun _ _ => refused _ required)
      | some failedCount =>
          refine (pinVerify_login rfl presented rfl rfl rfl).bind (fun use result verified => ?_)
          cases result with
          | none => exact refused _ (by decide)
          | some outcome =>
              cases outcome with
              | ok upgraded =>
                  obtain ⟨request, granted, right⟩ := verified.2 upgraded rfl
                  exact pinVerified_login request granted right
              | refused =>
                  obtain ⟨request, granted, wrong⟩ := verified.1 rfl
                  refine .perform ⟨trivial, by simp only [request]⟩ (fun _ _ => ?_)
                  split
                  · refine .perform ⟨rfl, ?_⟩ (fun _ _ => ?_)
                    · simpa only [loginMonitor, LoginUse.next, request] using And.intro granted wrong
                    · refine .perform ⟨trivial, ?_⟩ (fun _ _ => refused _ required)
                      simp only [loginMonitor, LoginUse.next, request]
                  · exact refused _ (by simp [Refusal])

/-- Every request keeps to the protocol of the guards. -/
theorem handle_login (request : Request)
    : (handle platform cfg request).Obeys (loginMonitor platform cfg)
        (LoginUse.Finished platform cfg) { request } := by
  by_cases logs : ∃ req, request = .pinLogin req
  · obtain ⟨req, rfl⟩ := logs
    have ignores := loginMonitor_ignores platform cfg
      { request := .pinLogin req } (fun _ allowed => .inl allowed)
    have refused (response : Response) (refusal : Refusal response)
        : LoginUse.Finished platform cfg { request := .pinLogin req } response :=
      fun _ _ success => absurd success refusal
    refine pinLogin_obeys platform cfg req (skips_of_ignores ignores) rfl ?_ ?_
    · rintro _ response rfl
      exact refused response
    · rintro _ pin now rfl _ presented
      exact loginOnDevice_obeys platform cfg ignores refused (fun device => attemptPin_login presented)
  · exact others_login (not_exists.mp logs)

end DeviceAuth

end WorkersAuth

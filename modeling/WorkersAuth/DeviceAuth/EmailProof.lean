import WorkersAuth.DeviceAuth.Deployment
import WorkersAuth.DeviceAuth.FreshEmail
import WorkersAuth.Stores.GenuineSessions

/-! A PIN is set on the strength of a fresh email code only.
The proof passes through the session store: a session that is read carries what the request that minted it
gave it, and of these only `POST /email/verify` gives the time of a verification.
-/

namespace WorkersAuth.DeviceAuth

open Atomic Stores

variable {σ : Type} {platform : Platform} {cfg : Config}
  {sessions : Semantics SessionCall SessionCall.Reply σ} {holds : σ → SessionFacts → Prop}
  {world : World σ} {pool later : Pool Op Op.Reply (World σ) AppRequest AppAnswer}

variable (cfg pool) in
/-- In this part of the log, a request to `POST /email/verify` has consumed a code for an address that
resolved to the user; its clock read the time.
-/
def EmailProven (log : List (Entry Op Op.Reply)) (userId : String) (verifiedAt : Millis) : Prop :=
  ∃ index req email codeHash user, pool.requestOf index = some (.route (.emailVerify req))
    ∧ readEmail cfg (req.field "email") = some email
    ∧ ⟨index, .host .clock, verifiedAt⟩ ∈ log
    ∧ ⟨index, .store (.consumeEmailCode email codeHash), true⟩ ∈ log
    ∧ ⟨index, .host (.resolveUser email), some user⟩ ∈ log ∧ user.id = userId

variable (cfg pool) in
/-- Whoever sets a PIN, and whoever `requireFreshEmailAuth` lets on, has proven an address of the account
within the time allowed.
-/
structure EmailGuarded : Prop where
  pins : ∀ before index record options result after,
    pool.log = before ++ ⟨index, .store (.replaceCredential record options), result⟩ :: after →
    ∃ now verifiedAt, ⟨index, .host .clock, now⟩ ∈ before ∧ now - verifiedAt ≤ cfg.freshMs
      ∧ EmailProven cfg pool before record.accountId verifiedAt
  guarded : ∀ index maxAgeMs req user info,
    pool.Answered index (.requireFreshEmailAuth maxAgeMs req) (.next user info) →
    ∃ now verifiedAt, ⟨index, .host .clock, now⟩ ∈ pool.log ∧ now - verifiedAt ≤ maxAgeMs
      ∧ EmailProven cfg pool pool.log user.id verifiedAt

/-- No session carries an email verification. -/
def Unproven (holds : σ → SessionFacts → Prop) (store : σ) : Prop :=
  ∀ facts verifiedAt, holds store facts → ¬Claims facts.metadata verifiedAt

/-- What is held was held at the start, or was minted by a call of the run; by induction on the run. -/
theorem minted_of_held (genuine : Genuine sessions holds)
    (reach : (application platform cfg sessions).Reachable world pool) {facts : SessionFacts}
    (held : holds pool.world.sessions facts)
    : holds world.sessions facts
      ∨ ∃ before index input session after,
          pool.log = before ++ ⟨index, .session (.create input), session⟩ :: after
          ∧ NewSession.facts input = facts := by
  induction reach with
  | refl => exact .inl held
  | @tail middle last reached step ih =>
      cases step with
      | arrive request => exact ih held
      | @perform entry _ performs =>
          have log_eq := performs.log_eq
          have executes := performs.executes
          have earlier (old : holds middle.world.sessions facts)
              : holds world.sessions facts
                ∨ ∃ before index input session after,
                    last.log = before ++ ⟨index, .session (.create input), session⟩ :: after
                    ∧ NewSession.facts input = facts := by
            refine (ih old).imp_right ?_
            rintro ⟨before, index, input, session, after, split, same⟩
            refine ⟨before, index, input, session, after ++ [entry], ?_, same⟩
            rw [log_eq, split, List.append_assoc, List.cons_append]
          obtain ⟨thread, op, reply⟩ := entry
          cases op with
          | store call => exact earlier (executes.2 ▸ held)
          | host call => exact earlier (executes.2 ▸ held)
          | session call =>
              rcases genuine.kept _ _ _ _ _ executes.1 held with old | ⟨input, rfl, same⟩
              · exact earlier old
              · exact .inr ⟨middle.log, thread, input, reply, [], log_eq, same⟩

theorem freshMonitor_faithful
    : (application platform cfg sessions).Faithful (freshMonitor platform cfg) :=
  fun op before reply after executes =>
    @mintMonitor_faithful platform cfg _ sessions op before reply after executes

/-- A session that is read with an email verification was minted by the request that consumed the code. -/
theorem emailProven_of_read (genuine : Genuine sessions holds) (unproven : Unproven holds world.sessions)
    (reach : (application platform cfg sessions).Reachable world pool) {before after : List (Entry Op Op.Reply)}
    {index : Nat} {sid : String} {session : Session} {verifiedAt : Millis}
    (split : pool.log = before ++ ⟨index, .session (.get sid), some session⟩ :: after)
    (carried : emailVerifiedAt session = some verifiedAt)
    : EmailProven cfg pool before session.userId verifiedAt := by
  obtain ⟨earlier, following, reached, rfl, performs, run⟩ := reach.at_entry split
  have held := genuine.get _ _ _ _ performs.executes.1
  rcases minted_of_held genuine reached held with old | ⟨front, minter, input, minted, back, created, same⟩
  · exact absurd ⟨session, rfl, carried⟩ (unproven _ _ old)
  have user : input.userId = session.userId := congrArg SessionFacts.userId same
  have metadata : input.metadata = session.metadata := congrArg SessionFacts.metadata same
  obtain ⟨request, start, _, made⟩ := reached.made freshMonitor_faithful run_fresh created
  obtain ⟨req, rfl, email, codeHash, resolved, address, clock, consumes, resolves, id⟩ :=
    made.allowed verifiedAt ⟨session, metadata.symm, carried⟩
  have logged {call : Call Op Op.Reply} (recorded : call ∈ start.history minter)
      : ⟨minter, call⟩ ∈ earlier.log := by
    rw [created, ← made.log_eq]
    exact List.mem_append_left _ (Service.mem_history.mp recorded)
  refine ⟨minter, req, email, codeHash, resolved, ?_, address, logged clock, logged consumes,
    logged resolves, id.trans user⟩
  exact Service.requestOf_run (.head (.perform performs) run) made.serves

/-- A fresh session that was read proves that its user's address was verified. -/
theorem emailProven_of_readsFresh (genuine : Genuine sessions holds)
    (unproven : Unproven holds world.sessions)
    (reach : (application platform cfg sessions).Reachable world pool) {index : Nat} {userId : String}
    {maxAgeMs : Millis} (reads : ReadsFresh (pool.history index) userId maxAgeMs)
    : ∃ now verifiedAt, ⟨index, .host .clock, now⟩ ∈ pool.log ∧ now - verifiedAt ≤ maxAgeMs
        ∧ EmailProven cfg pool pool.log userId verifiedAt := by
  obtain ⟨sid, session, now, verifiedAt, read, rfl, carried, clock, young⟩ := reads
  obtain ⟨before, after, split⟩ := List.append_of_mem (Service.mem_history.mp read)
  obtain ⟨minter, req, email, codeHash, user, serves, address, tick, consumes, resolves, id⟩ :=
    emailProven_of_read genuine unproven reach split carried
  have logged {entry : Entry Op Op.Reply} (early : entry ∈ before) : entry ∈ pool.log := by
    rw [split]
    exact List.mem_append_left _ early
  exact ⟨now, verifiedAt, Service.mem_history.mp clock, young, minter, req, email, codeHash, user, serves,
    address, logged tick, logged consumes, logged resolves, id⟩

/-- A PIN is set on the strength of a fresh email code only. In every run of the application and its
clients, in any interleaving, a `POST /pin` that stores a credential comes after a `POST /email/verify`
that has consumed a code for an address of the account, at a time no further back than
`freshEmailAuthSec`; and `requireFreshEmailAuth` lets on no one else either.
-/
theorem pin_needs_email_code (genuine : Genuine sessions holds) (unproven : Unproven holds world.sessions)
    (reach : (application platform cfg sessions).Reachable world pool)
    : EmailGuarded cfg pool where
  pins before index record options result after split := by
    obtain ⟨request, earlier, following, made⟩ := reach.made freshMonitor_faithful run_fresh split
    obtain ⟨now, verifiedAt, clock, young, minter, req, email, codeHash, user, serves, proven⟩ :=
      emailProven_of_readsFresh genuine unproven made.reachable made.allowed.2
    rw [made.log_eq] at clock proven
    exact ⟨now, verifiedAt, clock, young, minter, req, email, codeHash, user,
      Service.requestOf_run (.head (.perform made.performs) made.run) serves, proven⟩
  guarded index maxAgeMs req user info answered := by
    have obeying := reach.obeys freshMonitor_faithful run_fresh
      ⟨.requireFreshEmailAuth maxAgeMs req, pool.history index, .pure (.next user info)⟩
      (List.mem_of_getElem? (by rw [Service.getElem?_progress, answered]; rfl))
    rw [Monitor.journal_track, List.nil_append] at obeying
    exact emailProven_of_readsFresh genuine unproven reach (obeying maxAgeMs req user info rfl rfl)

/-- So it is over the D1, the Postgres and the KV store, when they start empty. -/
theorem pin_needs_email_code_stores {store : SessionStore} {consistency : Consistency} {db : Database}
    {now : Millis} {stored : Pool Op Op.Reply (World Storage) AppRequest AppAnswer}
    (reach : (application platform cfg (store.oneAtATime platform consistency)).Reachable
      ⟨db, .empty now⟩ stored)
    : EmailGuarded cfg stored :=
  pin_needs_email_code (oneAtATime_genuine store) (fun _ _ held => absurd held (not_holds_empty now)) reach

/-- The store in memory serves what it was given. -/
theorem memorySessions_genuine
    : Genuine memorySessions (fun store facts => ∃ session ∈ store.live, Session.facts session = facts) where
  get sid before session after := by
    rintro ⟨now, ran⟩
    have found := congrArg Prod.fst ran
    exact ⟨session, List.mem_of_find?_eq_some found, rfl⟩
  kept op before reply after facts := by
    rintro ⟨now, ran⟩ ⟨session, live, same⟩
    obtain rfl : after = (before.run now op).2 := congrArg Prod.snd ran.symm
    cases op with
    | get sid => exact .inl ⟨session, live, same⟩
    | create input =>
        rcases List.mem_cons.mp live with rfl | old
        · exact .inr ⟨input, rfl, same⟩
        · exact .inl ⟨session, old, same⟩
    | revoke sid => exact .inl ⟨session, (List.mem_filter.mp live).1, same⟩
    | revokeAllForUser userId => exact .inl ⟨session, (List.mem_filter.mp live).1, same⟩
    | touch sid idleExpiresAt =>
        obtain ⟨old, stored, rfl⟩ := List.mem_map.mp live
        refine .inl ⟨old, stored, ?_⟩
        split at same <;> exact same

/-- The call sets a PIN. -/
def setsCredential : Op → Bool
  | .store (.replaceCredential ..) => true
  | _ => false

open Sample in
/-- A code is sent and verified, and a second later a PIN is set with the session: the address was proven. -/
theorem pin_needs_email_code_played
    : ∃ (state : Pool Op Op.Reply (World MemorySessions) AppRequest AppAnswer) (before after : List _)
        (record : CredentialRecord) (options : ReplaceCredentialOptions) (result : ReplaceCredentialResult)
        (verifiedAt : Millis),
        (application Sample.platform config memorySessions).Reachable empty state
        ∧ state.log = before ++ ⟨2, .store (.replaceCredential record options), result⟩ :: after
        ∧ EmailProven config state before record.accountId verifiedAt := by
  let setsPin : AppRequest := .route (.setPin (request [("pin", .str pin)] none (some (ids 0))))
  have passes : ((application Sample.platform config memorySessions).play
      (compute Sample.platform users) (fun _ _ => true) (.start empty)
      (.arrive (.route startRequest) :: Move.times 8 0 { now := 0 }
        ++ .arrive (.route (verifyRequest "482915")) :: Move.times 15 1 { now := 1000 }
        ++ .arrive setsPin :: Move.times 8 2 { now := 2000, seed := 0x20 })).any
        (fun state => state.log.any (fun entry => entry.thread = 2 && setsCredential entry.call.op)) = true := by
    decide +kernel
  obtain ⟨state, played, checked⟩ := (Option.any_eq_true ..).mp passes
  have reach := Service.reachable_of_play (compute_sound Sample.platform users) played
  obtain ⟨⟨thread, op, result⟩, logged, replaces⟩ := List.any_eq_true.mp checked
  obtain ⟨before, after, split⟩ := List.append_of_mem logged
  obtain ⟨third, sets⟩ := (Bool.and_eq_true ..).mp replaces
  obtain rfl : thread = 2 := of_decide_eq_true third
  unfold setsCredential at sets
  dsimp only at sets
  split at sets
  case h_2 => contradiction
  next record options =>
  have unproven : Unproven (fun store facts => ∃ session ∈ MemorySessions.live store,
      Session.facts session = facts) empty.sessions :=
    fun _ _ held => absurd held (by simp [WorkersAuth.Sample.empty])
  obtain ⟨now, verifiedAt, _, _, proven⟩ :=
    (pin_needs_email_code memorySessions_genuine unproven reach).pins before 2 record options result after split
  exact ⟨state, before, after, record, options, result, verifiedAt, reach, split, proven⟩

end WorkersAuth.DeviceAuth

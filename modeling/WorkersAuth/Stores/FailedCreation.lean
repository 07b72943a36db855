import WorkersAuth.Stores.Served
import WorkersAuth.Stores.SessionMeta
import WorkersAuth.Stores.Writes

/-! What a `createSession` that throws costs its caller.
The arguments that `createSessionFor` checks first cost nothing when they are refused. What
throws after that, while the new session is put together, turned into text or stored, throws
after the previous session has been revoked.
-/

namespace WorkersAuth.Stores

open Atomic Program

section

variable {platform : Platform} {store : SessionStore} {isolate : Nat} {time kvTime : Millis}
  {object : StoreObject} {before after : World Storage} {live : Session}

-----------------------------------------------------------------------------------------
-- Sessions that are returned at an instant
-----------------------------------------------------------------------------------------

/-- The world when KV's own time is another. -/
def atKvTime (world : World Storage) (kvTime : Millis) : World Storage :=
  { world with sessions := { world.sessions with kvNow := kvTime } }

/-- What is served at a time of KV does not depend on how far KV was. -/
theorem served_atKvTime {world : World Storage} {moment : Millis} {sid : String}
    : store.served platform time moment (atKvTime world kvTime).sessions sid
      = store.served platform time moment world.sessions sid := by
  unfold SessionStore.served
  rfl

/-- `get` of the store object answers the session, when KV is at a time and stays there. -/
def Returned (platform : Platform) (store : SessionStore) (isolate : Nat) (time kvTime : Millis)
    (object : StoreObject) (world : World Storage) (session : Session)
    : Prop :=
  ∃ after, Evaluates (store.handles platform .strong isolate time) (object.get session.sid)
      (atKvTime world kvTime) (some session) after
    ∧ after.sessions.kvNow = kvTime

/-- The store object finds no dead device behind the session. -/
def DevicePasses (object : StoreObject) (db : DeviceAuth.Database) (time : Millis) (session : Session)
    : Prop :=
  object = .deviceBound → ∀ deviceId, sessionBoundDeviceId session = some deviceId →
    deviceServes (db.findDevice deviceId) session time = true

/-- The session a `get` of the store object answers at an instant is served by the store inside, and
its device passes.
-/
theorem objectGet_served {sid : String}
    (run : Evaluates (store.handles platform .strong isolate time) (object.get sid) before (some live)
      after)
    (still : after.sessions.kvNow = before.sessions.kvNow)
    : store.served platform time before.sessions.kvNow before.sessions sid = some live
      ∧ before.sessions.now ≤ time ∧ DevicePasses object before.db time live := by
  cases object with
  | plain =>
      obtain ⟨reply, middle, ⟨⟨serves, _⟩, _⟩, rest⟩ := evaluates_call.mp run
      obtain ⟨rfl, rfl⟩ := evaluates_pure.mp rest
      exact ⟨(get_instant serves still).1.symm, serves.1, fun impossible => nomatch impossible⟩
  | deviceBound =>
      simp only [StoreObject.get, deviceBoundGet, perform_bind] at run
      obtain ⟨reply, middle, ⟨⟨serves, sameDb⟩, _⟩, rest⟩ := evaluates_call.mp run
      cases reply with
      | none =>
          obtain ⟨impossible, _⟩ := evaluates_pure.mp rest
          contradiction
      | some stored =>
          dsimp only at rest
          split at rest
          · next free =>
              obtain ⟨same, rfl⟩ := evaluates_pure.mp rest
              cases same
              refine ⟨(get_instant serves still).1.symm, serves.1, fun _ deviceId bound => ?_⟩
              exact absurd (bound.symm.trans free) (by simp)
          · next deviceId bound =>
              obtain ⟨device, found, ⟨⟨looks, foundSame⟩, _⟩, rest⟩ := evaluates_call.mp rest
              obtain ⟨readAt, read, ⟨⟨_, readSame⟩, reads⟩, rest⟩ := evaluates_call.mp rest
              obtain ⟨rfl, _⟩ := Prod.mk.inj (Option.some.inj looks)
              cases readSame
              obtain rfl : readAt = time := reads
              split at rest
              · next alive =>
                  obtain ⟨same, rfl⟩ := evaluates_pure.mp rest
                  cases same
                  rw [foundSame] at still
                  refine ⟨(get_instant serves still).1.symm, serves.1, fun _ other same => ?_⟩
                  obtain rfl := Option.some.inj (bound.symm.trans same)
                  exact sameDb ▸ alive
              · obtain ⟨_, _, _, rest⟩ := evaluates_call.mp rest
                obtain ⟨impossible, _⟩ := evaluates_pure.mp rest
                contradiction

/-- A session that is served, and whose device passes, is returned. -/
theorem returned_of_served {world : World Storage} (isolate : Nat) (object : StoreObject)
    (read : world.sessions.now ≤ time)
    (served : store.served platform time kvTime world.sessions live.sid = some live)
    (passes : DevicePasses object world.db time live)
    : Returned platform store isolate time kvTime object world live := by
  obtain ⟨sessions, serves, still⟩ := exists_get (atKvTime world kvTime).sessions read
    (served_atKvTime.trans served)
  have gets : store.handles platform .strong isolate time (.session (.get live.sid))
      (atKvTime world kvTime) (some live) ⟨world.db, sessions⟩ := ⟨⟨serves, rfl⟩, trivial⟩
  refine ⟨⟨world.db, sessions⟩, ?_, still⟩
  cases object with
  | plain => exact evaluates_call.mpr ⟨_, _, gets, evaluates_pure.mpr ⟨rfl, rfl⟩⟩
  | deviceBound =>
      simp only [StoreObject.get, deviceBoundGet, perform_bind]
      refine evaluates_call.mpr ⟨_, _, gets, ?_⟩
      dsimp only
      split
      · exact evaluates_pure.mpr ⟨rfl, rfl⟩
      · next deviceId bound =>
          refine evaluates_call.mpr ⟨world.db.findDevice deviceId, _, ⟨⟨rfl, rfl⟩, trivial⟩, ?_⟩
          refine evaluates_call.mpr ⟨time, _, ⟨⟨trivial, rfl⟩, rfl⟩, ?_⟩
          rw [if_pos (passes rfl deviceId bound)]
          exact evaluates_pure.mpr ⟨rfl, rfl⟩

/-- A session that is returned is served, and its device passes. -/
theorem Returned.served {world : World Storage}
    (returned : Returned platform store isolate time kvTime object world live)
    : store.served platform time kvTime world.sessions live.sid = some live
      ∧ world.sessions.now ≤ time ∧ DevicePasses object world.db time live := by
  obtain ⟨after, run, still⟩ := returned
  have served := objectGet_served run still
  rwa [served_atKvTime] at served

-----------------------------------------------------------------------------------------
-- Arguments of the declared types
-----------------------------------------------------------------------------------------

/-- Arguments of the declared types that pass the first checks can be written. -/
theorem prepare_ofUser {config : AuthConfig} {user : AuthUser} {options : CreateSessionOptions}
    (store : SessionStore) (readAt : Millis)
    (passes : Js.refusal config (Js.ofUser user) (Js.ofOptions options) = none)
    : ∃ written, Js.prepare config (Js.ofUser user) (Js.ofOptions options) store readAt = .ok written := by
  obtain ⟨_, _, positive, ordered⟩ := Js.refusal_ofUser.mp passes
  rw [Js.prepare, Js.newSession_ofUser]
  exact Js.write_ofNewSession positive (lt_of_lt_of_le positive ordered)

-----------------------------------------------------------------------------------------
-- What a failed call costs
-----------------------------------------------------------------------------------------

variable {config : AuthConfig} {req : HttpRequest} {user : Js.AuthUser}
  {options : Js.CreateSessionOptions} {keeps : Js.Write → Option NewSession}

/-- The request has a live cookie session, at an instant. -/
def LiveCookieSession (platform : Platform) (store : SessionStore) (isolate : Nat) (time : Millis)
    (config : AuthConfig) (req : HttpRequest) (world : World Storage) (live : Session)
    : Prop :=
  ∃ csrfCookie after,
    Evaluates (store.handles platform .strong isolate time) (readCookieSession config req) world
      ⟨some live, csrfCookie⟩ after
    ∧ after.sessions.kvNow = world.sessions.kvNow

/-- Whenever the call throws, nothing has been stored, and the session is still returned if it would
be at that time had the call not been made.
-/
def CostsNothing (platform : Platform) (store : SessionStore) (isolate : Nat) (time : Millis)
    (keeps : Js.Write → Option NewSession) (config : AuthConfig) (req : HttpRequest)
    (user : Js.AuthUser) (options : Js.CreateSessionOptions) (before : World Storage) (live : Session)
    : Prop :=
  ∀ failure after,
    Evaluates (store.handles platform .strong isolate time)
        (Js.createSessionFor config user options platform store keeps req) before (.error failure) after →
      Wanes before.sessions after.sessions
      ∧ (Returned platform store isolate time after.sessions.kvNow config.store before live →
          Returned platform store isolate time after.sessions.kvNow config.store after live)

/-- The call rotates the session out: it is a cookie login, and the previous session it was given, if
it was given one, goes by the same id.
-/
def RotatesOut (platform : Platform) (options : Js.CreateSessionOptions) (live : Session) : Prop :=
  options.bearer = false ∧ ∀ given, options.previousSession = some given →
    ∃ previous, given = some previous ∧ sha256Hex platform live.sid = sha256Hex platform previous.sid

/-- The storage accepts what the store writes for these arguments at a reading of the clock. -/
def Accepted (config : AuthConfig) (user : Js.AuthUser) (options : Js.CreateSessionOptions)
    (store : SessionStore) (keeps : Js.Write → Option NewSession) (readAt : Millis)
    : Prop :=
  ∀ written, Js.prepare config user options store readAt = .ok written → (keeps written).isSome

/-- A live cookie session is returned. -/
theorem LiveCookieSession.returned
    (signed : LiveCookieSession platform store isolate time config req before live)
    : Returned platform store isolate time before.sessions.kvNow config.store before live := by
  obtain ⟨csrfCookie, after, run, still⟩ := signed
  unfold readCookieSession at run
  split at run
  · obtain ⟨impossible, _⟩ := evaluates_pure.mp run
    cases impossible
  · next sid presented =>
      obtain ⟨found, middle, read, rest⟩ := evaluates_bind.mp run
      obtain ⟨same, rfl⟩ := evaluates_pure.mp rest
      obtain ⟨served, _⟩ := CookieSession.mk.inj same
      obtain ⟨rfl, _⟩ := Option.filter_eq_some_iff.mp served.symm
      obtain rfl := (objectGet_found read).sid
      exact ⟨after, read, still⟩

/-- A session that is served, on a live device and of the cookie kind, is a live cookie session of a
request that carries its id.
-/
theorem liveCookieSession_of_served (read : before.sessions.now ≤ time)
    (served : store.served platform time before.sessions.kvNow before.sessions live.sid = some live)
    (passes : DevicePasses config.store before.db time live)
    (cookie : (req.cookie config.cookie.sessionCookieName).filter (· ≠ "") = some live.sid)
    (usable : (!isBearerSession live && deviceCheckApplied config.store live && hasRateLimitId live)
      = true)
    : LiveCookieSession platform store isolate time config req before live := by
  obtain ⟨after, run, still⟩ :=
    returned_of_served isolate config.store read served passes
  refine ⟨req.cookie config.cookie.csrfCookieName, after, ?_, still⟩
  unfold readCookieSession
  simp only [cookie]
  refine evaluates_bind.mpr ⟨some live, after, run, evaluates_pure.mpr ⟨?_, rfl⟩⟩
  simp only [Option.filter_some, usable, if_true]

/-- No clock reading lies after the time of a handler, from one call to the next. -/
theorem read_handled {α : Type} {handler : Handler α} {answer : α}
    (run : Evaluates (store.handles platform .strong isolate time) handler before answer after)
    (read : before.sessions.now ≤ time)
    : after.sessions.now ≤ time := by
  have calls (op : WorkersAuth.Op) (start : World Storage) (reply : op.Reply) (finish : World Storage)
      (taken : store.handles platform .strong isolate time op start reply finish)
      (read : start.sessions.now ≤ time)
      : finish.sessions.now ≤ time := by
    cases op with
    | store call => exact taken.1.2 ▸ read
    | host call => exact taken.1.2 ▸ read
    | session call => exact (serves_effect taken.1.1).now.le
  exact run.preserves (fun _ _ => False.elim) calls read

/-- Revoking a session that is rotated out is a `revoke` of the store. -/
theorem revokePrevious_run {previous : Session}
    (run : Evaluates (store.handles platform .strong isolate time) (revokePrevious (some previous)) before
      () after)
    : Serves platform .strong time (store.call platform (.revoke previous.sid)) before.sessions .done
        after.sessions
      ∧ after.db = before.db :=
  (evaluates_perform.mp run).1

/-- The call revokes the previous session and then throws exactly when the new one is not accepted. -/
theorem createSessionFor_fails_iff {failure : Js.Failure} (passes : Js.refusal config user options = none)
    : Evaluates (store.handles platform .strong isolate time)
          (Js.createSessionFor config user options platform store keeps req) before (.error failure) after
      ↔ ∃ previous middle,
          Evaluates (store.handles platform .strong isolate time)
            (previousSession config req
              { bearer := options.bearer, previousSession := options.previousSession })
            before previous middle
          ∧ Evaluates (store.handles platform .strong isolate time) (revokePrevious previous) middle ()
              after
          ∧ (Js.prepare config user options store time = .error failure
            ∨ failure = .storage ∧ ∃ written,
                Js.prepare config user options store time = .ok written ∧ keeps written = none) := by
  unfold Js.createSessionFor
  simp only [passes, perform_bind]
  constructor
  · intro run
    obtain ⟨previous, middle, reads, rest⟩ := evaluates_bind.mp run
    obtain ⟨⟨⟩, revoked, revokes, rest⟩ := evaluates_bind.mp rest
    obtain ⟨readAt, _, ⟨⟨_, same⟩, clock⟩, rest⟩ := evaluates_call.mp rest
    cases same
    obtain rfl : time = readAt := Eq.symm clock
    cases prepared : Js.prepare config user options store time with
    | error thrown =>
        simp only [prepared] at rest
        obtain ⟨same, rfl⟩ := evaluates_pure.mp rest
        cases same
        exact ⟨previous, middle, reads, revokes, .inl rfl⟩
    | ok written =>
        simp only [prepared] at rest
        cases kept : keeps written with
        | none =>
            simp only [kept] at rest
            obtain ⟨same, rfl⟩ := evaluates_pure.mp rest
            cases same
            exact ⟨previous, middle, reads, revokes, .inr ⟨rfl, written, rfl, kept⟩⟩
        | some input =>
            -- what follows the storage's acceptance does not throw
            simp only [kept] at rest
            obtain ⟨session, _, _, rest⟩ := evaluates_call.mp rest
            obtain ⟨_, _, _, rest⟩ := evaluates_bind.mp rest
            obtain ⟨_, _, _, rest⟩ := evaluates_call.mp rest
            obtain ⟨impossible, _⟩ := evaluates_pure.mp rest
            contradiction
  · rintro ⟨previous, middle, reads, revokes, throws⟩
    refine evaluates_bind.mpr ⟨previous, middle, reads, evaluates_bind.mpr ⟨(), after, revokes, ?_⟩⟩
    refine evaluates_call.mpr ⟨time, after, ⟨⟨trivial, rfl⟩, rfl⟩, ?_⟩
    rcases throws with thrown | ⟨rfl, written, prepared, refused⟩
    · simp only [thrown]
      exact evaluates_pure.mpr ⟨rfl, rfl⟩
    · simp only [prepared, refused]
      exact evaluates_pure.mpr ⟨rfl, rfl⟩

/-- Revoking a session under another hash stores nothing and spares this one. -/
theorem revokePrevious_spares {previous : Option Session}
    (run : Evaluates (store.handles platform .strong isolate time) (revokePrevious previous) before ()
      after)
    (other : ∀ session, previous = some session →
      sha256Hex platform live.sid ≠ sha256Hex platform session.sid)
    : Wanes before.sessions after.sessions
      ∧ (Returned platform store isolate time kvTime object before live →
          Returned platform store isolate time kvTime object after live) := by
  cases previous with
  | none =>
      obtain ⟨_, rfl⟩ := evaluates_pure.mp run
      exact ⟨Wanes.refl _, id⟩
  | some session =>
      obtain ⟨serves, sameDb⟩ := revokePrevious_run run
      have effect := serves_effect serves
      refine ⟨?_, fun returned => ?_⟩
      · cases effect with
        | quiet quiet wanes now => exact wanes
      · obtain ⟨served, _, passes⟩ := returned.served
        refine returned_of_served isolate object effect.now.le ?_ (sameDb ▸ passes)
        exact (revoke_spares (other session rfl) serves).served.trans served

/-- A call that does not rotate the session out costs nothing. -/
theorem costsNothing_of_keeps (stays : ¬RotatesOut platform options live)
    (passes : Js.refusal config user options = none)
    : CostsNothing platform store isolate time keeps config req user options before live := by
  intro failure after run
  obtain ⟨previous, middle, reads, revokes, _⟩ := (createSessionFor_fails_iff passes).mp run
  unfold previousSession at reads
  cases bearer : options.bearer with
  | true =>
      simp only [bearer] at reads
      obtain ⟨rfl, rfl⟩ := evaluates_pure.mp reads
      exact revokePrevious_spares revokes (fun session impossible => nomatch impossible)
  | false =>
      cases given : options.previousSession with
      | none => exact absurd ⟨bearer, by simp [given]⟩ stays
      | some chosen =>
          simp only [bearer, given] at reads
          obtain ⟨rfl, rfl⟩ := evaluates_pure.mp reads
          refine revokePrevious_spares revokes (fun session same hash => stays ⟨bearer, ?_⟩)
          intro other chosenSame
          exact ⟨session, (Option.some.inj (given.symm.trans chosenSame)).symm.trans same, hash⟩

/-- A call that rotates the session out and then throws costs the session: at the instant of the
call it can be run to its end, and no session is served under the hash afterwards.
-/
theorem costs_of_rotates (signed : LiveCookieSession platform store isolate time config req before live)
    (passes : Js.refusal config user options = none) (rotates : RotatesOut platform options live)
    (refused : ¬(Js.Serialisable config user options store
      ∧ Accepted config user options store keeps time))
    : ¬CostsNothing platform store isolate time keeps config req user options before live := by
  intro costs
  have returned := signed.returned
  obtain ⟨bearer, given⟩ := rotates
  -- the previous session, read while KV's own time stands still
  obtain ⟨previous, middle, reads, still, read, hash⟩ : ∃ previous middle,
      Evaluates (store.handles platform .strong isolate time)
        (previousSession config req
          { bearer := options.bearer, previousSession := options.previousSession })
        before (some previous) middle
      ∧ middle.sessions.kvNow = before.sessions.kvNow ∧ middle.sessions.now ≤ time
      ∧ sha256Hex platform live.sid = sha256Hex platform previous.sid := by
    cases chosen : options.previousSession with
    | some session =>
        obtain ⟨previous, rfl, hash⟩ := given session chosen
        refine ⟨previous, before, ?_, rfl, returned.served.2.1, hash⟩
        simp only [previousSession, bearer]
        exact evaluates_pure.mpr ⟨rfl, rfl⟩
    | none =>
        obtain ⟨csrfCookie, middle, run, still⟩ := signed
        refine ⟨live, middle, ?_, still, ?_, rfl⟩
        · simp only [previousSession, bearer]
          exact evaluates_bind.mpr ⟨_, middle, run, evaluates_pure.mpr ⟨rfl, rfl⟩⟩
        · exact read_handled run returned.served.2.1
  obtain ⟨sessions, serves, stands⟩ := exists_revoke previous.sid read
  have revokes : Evaluates (store.handles platform .strong isolate time)
      (revokePrevious (some previous)) middle () ⟨middle.db, sessions⟩ :=
    evaluates_perform.mpr ⟨⟨serves, rfl⟩, trivial⟩
  obtain ⟨failure, throws⟩ : ∃ failure, Js.prepare config user options store time = .error failure
      ∨ failure = .storage ∧ ∃ written,
          Js.prepare config user options store time = .ok written ∧ keeps written = none := by
    cases prepared : Js.prepare config user options store time with
    | error failure => exact ⟨failure, .inl rfl⟩
    | ok written =>
        refine ⟨.storage, .inr ⟨rfl, written, rfl, ?_⟩⟩
        refine Option.not_isSome_iff_eq_none.mp (fun accepted => refused ⟨?_, fun other same => ?_⟩)
        · exact (Js.prepare_isOk_iff time passes).mp ⟨written, prepared⟩
        · exact Except.ok.inj (prepared.symm.trans same) ▸ accepted
  have run := (createSessionFor_fails_iff passes).mpr ⟨some previous, middle, reads, revokes, throws⟩
  have there : sessions.kvNow = before.sessions.kvNow := stands.trans still
  have later := (costs failure _ run).2 (there ▸ returned)
  exact absurd (later.served.1.symm.trans (revoke_served hash serves)) (by simp)

/-- A `createSession` that throws costs the caller nothing exactly when an argument fails one of the
first checks, or the live session is not the one that is rotated out, or nothing after the
revocation can throw: every part of the new session can be written as text, and the storage
accepts what is written.
-/
theorem createSession_costsNothing_iff
    (signed : LiveCookieSession platform store isolate time config req before live)
    : CostsNothing platform store isolate time keeps config req user options before live
      ↔ (Js.refusal config user options).isSome ∨ ¬RotatesOut platform options live
        ∨ (Js.Serialisable config user options store
          ∧ Accepted config user options store keeps time) := by
  constructor
  · intro costs
    by_contra none
    simp only [not_or, Option.not_isSome_iff_eq_none, not_not] at none
    obtain ⟨passes, rotates, refused⟩ := none
    exact costs_of_rotates signed passes rotates refused costs
  · intro condition failure after run
    cases passes : Js.refusal config user options with
    | some refused =>
        simp only [Js.createSessionFor, passes] at run
        obtain ⟨_, rfl⟩ := evaluates_pure.mp run
        exact ⟨Wanes.refl _, id⟩
    | none =>
        rcases condition with refused | keepsIt | ⟨serialisable, accepted⟩
        · simp [passes] at refused
        · exact costsNothing_of_keeps keepsIt passes failure after run
        · obtain ⟨written, prepared⟩ := (Js.prepare_isOk_iff time passes).mpr serialisable
          obtain ⟨_, _, _, _, thrown | ⟨_, other, again, refused⟩⟩ :=
            (createSessionFor_fails_iff passes).mp run
          · exact absurd (prepared.symm.trans thrown) (by simp)
          · simpa [refused] using accepted other again

/-- What `createSessionFor` does with arguments of the declared types: it refuses them by the same
checks, or mints the session that it asks the store for.
-/
theorem createSessionFor_checked (platform : Platform) (config : AuthConfig) (req : HttpRequest)
    (user : AuthUser) (options : CreateSessionOptions)
    : if Js.refusal config (Js.ofUser user) (Js.ofOptions options) = none then
        createSessionFor platform config req user options = (do
          revokePrevious (← previousSession config req options)
          let session ← sessionStore.create
            (newSession config user options (options.ttl.getD config.session))
          issueCookies platform config options.bearer session
          host.onEvent (.sessionCreated session.userId session.subjectType
            (fingerprint platform session.sid))
          return .ok session)
      else ∃ error, createSessionFor platform config req user options = return .error error := by
  split
  · next passes =>
      obtain ⟨limited, reserved, positive, ordered⟩ := Js.refusal_ofUser.mp passes
      simp [createSessionFor, limited, reserved, positive, ordered]
  · next refused =>
      rw [Js.refusal_ofUser] at refused
      unfold createSessionFor
      split
      · exact ⟨_, rfl⟩
      · next limited =>
          split
          · exact ⟨_, rfl⟩
          · next free =>
              dsimp only
              split
              · exact ⟨_, rfl⟩
              · next positive =>
                  simp only [not_or, not_le, not_lt] at positive
                  exact absurd ⟨limited, by simpa using free, positive⟩ refused

/-- On arguments of the declared types, over a storage that keeps the session it is asked for, the
sessions created are those of `createSessionFor`.
-/
theorem createSessionFor_ofUser {user : AuthUser} {options : CreateSessionOptions} {session : Session}
    (kept : ∀ written,
      Js.prepare config (Js.ofUser user) (Js.ofOptions options) store time = .ok written →
        keeps written = some (newSession config user options (options.ttl.getD config.session)))
    : Evaluates (store.handles platform .strong isolate time)
          (Js.createSessionFor config (Js.ofUser user) (Js.ofOptions options) platform store keeps req)
          before (.ok session) after
      ↔ Evaluates (store.handles platform .strong isolate time)
          (createSessionFor platform config req user options) before (.ok session) after := by
  have checked := createSessionFor_checked platform config req user options
  cases passes : Js.refusal config (Js.ofUser user) (Js.ofOptions options) with
  | some failure =>
      simp only [passes, reduceCtorEq, if_false] at checked
      obtain ⟨error, same⟩ := checked
      simp [Js.createSessionFor, passes, same]
  | none =>
      simp only [passes, if_true] at checked
      obtain ⟨written, prepared⟩ := prepare_ofUser store time passes
      -- the clock that dates the write leaves the world as it is
      have dated (start : World Storage) (rest : Millis → World Storage → Prop)
          : (∃ readAt middle, Evaluates (store.handles platform .strong isolate time) host.clock start
                readAt middle ∧ rest readAt middle)
            ↔ rest time start := by
        simp only [evaluates_perform]
        constructor
        · rintro ⟨readAt, _, ⟨⟨_, rfl⟩, clock⟩, later⟩
          exact (show readAt = time from clock) ▸ later
        · intro later
          exact ⟨time, start, ⟨⟨trivial, rfl⟩, rfl⟩, later⟩
      rw [checked]
      simp only [Js.createSessionFor, passes, evaluates_bind, dated, prepared, kept written prepared,
        pure_eq, evaluates_pure, Except.ok.injEq]
      rfl

end

-----------------------------------------------------------------------------------------
-- A login that fails
-----------------------------------------------------------------------------------------

namespace Sample

/-- The cookie session of the sample user, created at time zero. -/
def signedInRow : SessionRow :=
  newRow (sha256Hex platform sid)
    (newSession WorkersAuth.Sample.auth WorkersAuth.Sample.user {} WorkersAuth.Sample.auth.session) 0

def signedInSession : Session := rowToSession signedInRow sid

def signedIn : World Storage where
  db := .empty
  sessions := {
    empty with
    drawn := [sha256Hex platform sid]
    rows := ⟨[signedInRow], List.nodup_singleton _⟩
  }

/-- A login form with the session's cookie. -/
def loginRequest : HttpRequest :=
  { WorkersAuth.Sample.request [] with
    cookie := fun name => if name = "__Host-session" then some sid else none }

/-- Metadata that contains itself. -/
def cyclicOptions : Js.CreateSessionOptions where
  metadata := .obj [("profile", .obj [("owner", .cycle)])]

/-- A storage that accepts every write. -/
def keepsAll (_ : Js.Write) : Option NewSession := some input

/-- The session is live a second later. -/
theorem signedIn_live
    : LiveCookieSession platform d1 0 1000 WorkersAuth.Sample.auth loginRequest signedIn signedInSession := by
  have minted : ReadsAsMinted WorkersAuth.Sample.auth WorkersAuth.Sample.user {} signedInSession :=
    readsAsMinted (by decide) rfl rfl rfl rfl rfl
  have stored : signedIn.sessions.rows.find (sha256Hex platform sid) = some signedInRow := by
    simp [Tables.Table.find, signedIn, signedInRow, newRow]
  have fresh : signedInRow.expired 1000 = false := by decide +kernel
  refine liveCookieSession_of_served (by decide) ?_ ?_ ?_ ?_
  · have served : d1.servedRow platform 1000 signedIn.sessions sid (some signedInRow)
        = some signedInSession := by
      simp [SessionStore.servedRow, d1, SessionStore.revokes, SessionStore.revocation, fresh,
        signedInSession]
    rw [← stored] at served
    exact served
  · intro _ deviceId bound
    simp [minted.device] at bound
  · rfl
  · simp [minted.transport, minted.rateLimited, deviceCheckApplied, minted.device]

/-- Cyclic metadata passes the first checks, and is refused only when it is written. -/
theorem cyclicOptions_fail
    : Js.refusal WorkersAuth.Sample.auth (Js.ofUser WorkersAuth.Sample.user) cyclicOptions = none
      ∧ Js.prepare WorkersAuth.Sample.auth (Js.ofUser WorkersAuth.Sample.user) cyclicOptions d1 1000
        = .error .stringify := by
  exact ⟨rfl, rfl⟩

end Sample

/-- A login of the sample user without metadata costs nothing when it throws. -/
theorem createSession_costsNothing_sample
    : CostsNothing Sample.platform Sample.d1 0 1000 Sample.keepsAll WorkersAuth.Sample.auth
        Sample.loginRequest (Js.ofUser WorkersAuth.Sample.user) {} Sample.signedIn
        Sample.signedInSession :=
  (createSession_costsNothing_iff Sample.signedIn_live).mpr
    (.inr (.inr ⟨(Js.prepare_isOk_iff 1000 rfl).mp ⟨_, rfl⟩, fun _ _ => rfl⟩))

/-- With metadata that contains itself the sample's login throws, and its cookie session is gone. -/
theorem createSession_costs
    : LiveCookieSession Sample.platform Sample.d1 0 1000 WorkersAuth.Sample.auth Sample.loginRequest
        Sample.signedIn Sample.signedInSession
      ∧ ¬CostsNothing Sample.platform Sample.d1 0 1000 Sample.keepsAll WorkersAuth.Sample.auth
          Sample.loginRequest (Js.ofUser WorkersAuth.Sample.user) Sample.cyclicOptions Sample.signedIn
          Sample.signedInSession := by
  obtain ⟨passes, unwritten⟩ := Sample.cyclicOptions_fail
  refine ⟨Sample.signedIn_live, costs_of_rotates Sample.signedIn_live passes ⟨rfl, by nofun⟩ ?_⟩
  rintro ⟨serialisable, _⟩
  obtain ⟨written, prepared⟩ := (Js.prepare_isOk_iff 1000 passes).mpr serialisable
  exact absurd (unwritten.symm.trans prepared) (by simp)

end WorkersAuth.Stores

import WorkersAuth.Middleware
import WorkersAuth.Stores.OneAtATime

/-! Handlers over one of the session stores, one at a time.
A handler's session calls are calls of the store, made while the clock stands still. What no
call but a touch can break, a handler that touches no session keeps.
-/

namespace WorkersAuth.Stores

open Atomic Program

-----------------------------------------------------------------------------------------
-- The store behind a handler
-----------------------------------------------------------------------------------------

/-- The call of the store that a handler's session call is, made in an isolate. -/
def callOf (isolate : Nat) : SessionCall → Request
  | .get sid => .get sid
  | .create input => .create input
  | .revoke sid => .revoke sid
  | .revokeAllForUser userId => .revokeAllForUser userId
  | .touch sid idleExpiresAt => .touch isolate sid idleExpiresAt

/-- The store's answer that a handler has as its reply; a `create` that throws gives none. -/
def answerOf : (call : SessionCall) → call.Reply → Answer
  | .get _, session => .found session
  | .create _, session => .created (.ok session)
  | .revoke _, _ => .done
  | .revokeAllForUser _, _ => .done
  | .touch .., _ => .done

/-- What a handler's clock reads. -/
def ReadsAt (time : Millis) : (op : WorkersAuth.Op) → op.Reply → Prop
  | .host .clock, read => read = time
  | _, _ => True

/-- The session calls of handlers, over a store. -/
def SessionStore.sessions (store : SessionStore) (platform : Platform) (consistency : Consistency)
    (isolate : Nat) (time : Millis)
    : Semantics SessionCall SessionCall.Reply Storage :=
  fun call before reply after =>
    Stores.Serves platform consistency time (store.call platform (callOf isolate call)) before
      (answerOf call reply) after

/-- The calls of a handler that is served alone, in an isolate and at a time. -/
def SessionStore.handles (store : SessionStore) (platform : Platform) (consistency : Consistency)
    (isolate : Nat) (time : Millis)
    : Semantics WorkersAuth.Op WorkersAuth.Op.Reply (World Storage) :=
  fun op before reply after =>
    WorkersAuth.exec platform (store.sessions platform consistency isolate time) op before reply after
    ∧ ReadsAt time op reply

-----------------------------------------------------------------------------------------
-- What a handler keeps
-----------------------------------------------------------------------------------------

variable {platform : Platform} {consistency : Consistency} {store : SessionStore} {isolate : Nat}
  {time : Millis} {α : Type} {handler : Handler α} {answer : α} {before after : World Storage}

/-- The request extends no session. -/
def Request.touchesNone : Request → Bool
  | .touch .. => false
  | _ => true

/-- What every call but a touch preserves of the storage, a handler that touches no session
keeps; by its trace.
-/
theorem keeps_untouched
    (run : Evaluates (store.handles platform consistency isolate time) handler before answer after)
    (within : handler.Within WorkersAuth.Op.TouchesNone) (keep : Storage → Prop)
    (preserves : ∀ request answer before after, request.touchesNone = true →
      Effect platform store time before request answer after → keep before → keep after)
    (initial : keep before.sessions)
    : keep after.sessions := by
  obtain ⟨calls, leads, executes⟩ := run.trace
  refine executes.keeps (fun world => keep world.sessions) (fun made member before after taken kept => ?_)
    initial
  have untouched := within.made leads made member
  obtain ⟨op, reply⟩ := made
  obtain ⟨performs, _⟩ := taken
  cases op with
  | store call => exact performs.2 ▸ kept
  | host call => exact performs.2 ▸ kept
  | session call =>
      refine preserves _ _ _ _ ?_ (serves_effect performs.1) kept
      cases call with
      | touch sid idleExpiresAt => exact untouched.elim
      | _ => rfl

/-- What is stored stays accounted for, whatever a handler calls. -/
theorem accounted_handled
    (run : Evaluates (store.handles platform consistency isolate time) handler before answer after)
    (accounted : before.sessions.Accounted)
    : after.sessions.Accounted := by
  have calls (op : WorkersAuth.Op) (start : World Storage) (reply : op.Reply) (finish : World Storage)
      (taken : store.handles platform consistency isolate time op start reply finish)
      (accounted : start.sessions.Accounted)
      : finish.sessions.Accounted := by
    cases op with
    | store call => exact taken.1.2 ▸ accounted
    | host call => exact taken.1.2 ▸ accounted
    | session call => exact (serves_effect taken.1.1).accounted accounted
  exact run.preserves (fun _ _ => False.elim) calls accounted

/-- A `get` answers with the id it was asked for. -/
theorem Found.sid {storage : Storage} {sid : String} {session : Session}
    (found : Found platform consistency store time storage sid session)
    : session.sid = sid := by
  cases found <;> rfl

/-- A session that a store object serves has been found in the storage. -/
theorem objectGet_found {object : StoreObject} {sid : String} {session : Session}
    (run : Evaluates (store.handles platform consistency isolate time) (object.get sid) before
      (some session) after)
    : Found platform consistency store time before.sessions sid session := by
  cases object with
  | plain =>
      obtain ⟨reply, middle, ⟨⟨serves, _⟩, _⟩, rest⟩ := evaluates_call.mp run
      obtain ⟨rfl, _⟩ := evaluates_pure.mp rest
      exact get_found serves
  | deviceBound =>
      simp only [StoreObject.get, deviceBoundGet, perform_bind] at run
      obtain ⟨reply, middle, ⟨⟨serves, _⟩, _⟩, rest⟩ := evaluates_call.mp run
      cases reply with
      | none =>
          obtain ⟨impossible, _⟩ := evaluates_pure.mp rest
          contradiction
      | some stored =>
          have same : session = stored := by
            dsimp only at rest
            split at rest
            · obtain ⟨same, _⟩ := evaluates_pure.mp rest
              exact Option.some.inj same
            · obtain ⟨device, _, _, rest⟩ := evaluates_call.mp rest
              obtain ⟨readAt, _, _, rest⟩ := evaluates_call.mp rest
              split at rest
              · obtain ⟨same, _⟩ := evaluates_pure.mp rest
                exact Option.some.inj same
              · obtain ⟨_, _, _, rest⟩ := evaluates_call.mp rest
                obtain ⟨impossible, _⟩ := evaluates_pure.mp rest
                contradiction
          exact same ▸ get_found serves

/-- A cookie session that is read has been found under the cookie. -/
theorem readCookieSession_found {config : AuthConfig} {req : HttpRequest} {session : Session}
    {csrfCookie : Option String}
    (run : Evaluates (store.handles platform consistency isolate time) (readCookieSession config req)
      before ⟨some session, csrfCookie⟩ after)
    : req.cookie config.cookie.sessionCookieName = some session.sid
      ∧ Found platform consistency store time before.sessions session.sid session := by
  unfold readCookieSession at run
  split at run
  · obtain ⟨impossible, _⟩ := evaluates_pure.mp run
    cases impossible
  · next sid presented =>
      obtain ⟨found, middle, read, rest⟩ := evaluates_bind.mp run
      obtain ⟨same, _⟩ := evaluates_pure.mp rest
      obtain ⟨served, _⟩ := CookieSession.mk.inj same
      obtain ⟨rfl, _⟩ := Option.filter_eq_some_iff.mp served.symm
      have found := objectGet_found read
      obtain rfl := found.sid
      exact ⟨(Option.filter_eq_some_iff.mp presented).1, found⟩

/-- The cookie session that a request is authenticated by was found under its cookie. -/
theorem resolveRequestAuth_found {config : ResolvedAuthConfig} {req : HttpRequest}
    {user : Option AuthUser} {session : Session} {csrfCookie : Option String}
    (run : Evaluates (store.handles platform consistency isolate time) (resolveRequestAuth config req)
      before ⟨user, some session, csrfCookie⟩ after)
    : req.cookie config.cookie.sessionCookieName = some session.sid
      ∧ Found platform consistency store time before.sessions session.sid session := by
  obtain ⟨⟨current, csrf⟩, middle, read, rest⟩ := evaluates_bind.mp run
  dsimp only at rest
  split at rest
  · obtain ⟨same, _⟩ := evaluates_pure.mp rest
    obtain ⟨_, same, _⟩ := ResolvedRequestAuth.mk.inj same
    subst same
    exact readCookieSession_found read
  · obtain ⟨verified, _, _, rest⟩ := evaluates_bind.mp rest
    obtain ⟨same, _⟩ := evaluates_pure.mp rest
    cases same

end WorkersAuth.Stores

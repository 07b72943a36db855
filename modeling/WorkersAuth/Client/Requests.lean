import WorkersAuth.Types
import WorkersAuth.Atomic.Sequence

/-! The browser client: its calls, the requests they share, and what becomes of both.
The server and the browser's cookies are parameters. A request is sent with the cookies of
that moment, handled by the server later, and its promise settles later still; the calls that
await it go on one by one after that, in any order.
-/

namespace WorkersAuth.Client

open Atomic

/-- A `fetch` answer: `json()` gives nothing when the body is not JSON. -/
structure ClientResponse where
  status : Nat
  json : Option Json

def ClientResponse.ok (res : ClientResponse) : Bool :=
  200 ≤ res.status && res.status ≤ 299

/-- How a promise of the client is rejected. -/
inductive Rejection where
  | authClientError (status : Nat) (code : String)
  | notJson
  | bodyUsed
  | network

/-- How a call of the client settles; `null` and `undefined` are both no value. -/
inductive Outcome where
  | resolved (value : Option Json)
  | rejected (error : Rejection)

/-- `json()` of an answer whose body has or has not been used before. -/
def ClientResponse.readJson (res : ClientResponse) (used : Bool) : Except Rejection Json :=
  if used then .error .bodyUsed
  else
    match res.json with
    | none => .error .notJson
    | some value => .ok value

/-- The `error` of the body when it is a string; a body that is not JSON says nothing. -/
def ClientResponse.errorCode (res : ClientResponse) (used : Bool) : String :=
  match res.readJson used with
  | .ok body => ((body.get "error").bind Json.string?).getD "unknown"
  | .error _ => "unknown"

def parseError (res : ClientResponse) (used : Bool) : Rejection :=
  .authClientError res.status (res.errorCode used)

inductive ClientCall where
  | session
  | login
  | logout
  deriving DecidableEq

def ClientCall.path : ClientCall → String
  | .session => "/session"
  | .login => "/session"
  | .logout => "/logout"

def ClientCall.method : ClientCall → String
  | .session => "GET"
  | .login => "POST"
  | .logout => "POST"

def ClientCall.dedupKey : ClientCall → Option String
  | .session => some "GET /session"
  | .login => none
  | .logout => none

/-- What a call does with the answer it awaited, and whether the body is used after that. -/
def ClientCall.proceed : ClientCall → ClientResponse → Bool → Outcome × Bool
  | .session, res, used =>
      if res.status = 401 then (.resolved none, used)
      else if !res.ok then (.rejected (parseError res used), true)
      else
        match res.readJson used with
        | .ok value => (.resolved (some value), true)
        | .error error => (.rejected error, true)
  | .login, res, used =>
      if !res.ok then (.rejected (parseError res used), true)
      else
        match res.readJson used with
        | .ok value => (.resolved (some value), true)
        | .error error => (.rejected error, true)
  | .logout, res, used =>
      if !res.ok then (.rejected (parseError res used), true) else (.resolved none, used)

/-- An answer and what its `Set-Cookie` headers make of the browser's cookies. -/
structure Reply (Cookies : Type) where
  response : ClientResponse
  setCookie : Cookies → Cookies

/-- What has come of a request: on its way, handled by the server, or lost. -/
inductive Progress (Cookies : Type) where
  | sent
  | answered (reply : Reply Cookies)
  | failed

/-- A request of the client: the cookies it carries, and its promise. -/
structure Fetch (Cookies : Type) where
  call : ClientCall
  cookies : Cookies
  progress : Progress Cookies
  settled : Bool
  bodyUsed : Bool

variable {Cookies State : Type}

/-- A request as it is sent. -/
def Fetch.started (call : ClientCall) (cookies : Cookies) : Fetch Cookies :=
  { call, cookies, progress := .sent, settled := false, bodyUsed := false }

/-- A call in progress or settled: the request it awaits, and the cookies the browser held
when it was made.
-/
structure Caller (Cookies : Type) where
  call : ClientCall
  fetch : Nat
  cookies : Cookies
  outcome : Option Outcome

/-- One client, the browser's cookies and the state of the server. -/
structure Scene (Cookies State : Type) where
  cookies : Cookies
  server : State
  inflight : String → Option Nat
  fetches : List (Fetch Cookies)
  callers : List (Caller Cookies)

/-- `handles call cookies state reply next`: the request of this call, carrying these cookies,
may be given this answer by a server in this state, which goes on in the next.
-/
structure Server (Cookies State : Type) where
  handles : ClientCall → Cookies → State → Reply Cookies → State → Prop

/-- What happens next. `elsewhere` is anything done by other tabs and other parties. -/
inductive ClientEvent (Cookies State : Type) where
  | called (call : ClientCall)
  | handled (fetch : Nat) (reply : Reply Cookies) (next : State)
  | lost (fetch : Nat)
  | settled (fetch : Nat)
  | resumed (caller : Nat)
  | elsewhere (cookies : Cookies) (server : State)

/-- A request that is on the wire under this key is shared, otherwise one is sent. -/
def Scene.request (scene : Scene Cookies State) (call : ClientCall) : Scene Cookies State × Nat :=
  match call.dedupKey.bind scene.inflight with
  | some existing => (scene, existing)
  | none =>
      let pending := scene.fetches.length
      ({ scene with
        fetches := scene.fetches ++ [Fetch.started call scene.cookies]
        inflight := fun key =>
          if call.dedupKey = some key then some pending else scene.inflight key }, pending)

/-- A call up to the `await` of its request. -/
def Scene.begin (scene : Scene Cookies State) (call : ClientCall) : Scene Cookies State :=
  let (sent, fetch) := scene.request call
  { sent with
    callers := sent.callers ++ [{ call, fetch, cookies := scene.cookies, outcome := none }] }

/-- What has come of a request becomes known, unless it is known already. -/
def Scene.advance (scene : Scene Cookies State) (id : Nat) (fetch : Fetch Cookies)
    (progress : Progress Cookies) (server : State)
    : Scene Cookies State :=
  { scene with fetches := scene.fetches.set id { fetch with progress }, server }

/-- The promise of a request settles: its cookies are stored and `finally` drops it from the
requests on the wire.
-/
def Scene.settle (scene : Scene Cookies State) (id : Nat) (fetch : Fetch Cookies)
    (setCookie : Cookies → Cookies)
    : Scene Cookies State :=
  { scene with
    cookies := setCookie scene.cookies
    fetches := scene.fetches.set id { fetch with settled := true }
    inflight := fun key => if fetch.call.dedupKey = some key then none else scene.inflight key }

/-- A call whose request has settled goes on to its end. -/
def Scene.resume (scene : Scene Cookies State) (id : Nat) (caller : Caller Cookies)
    (fetch : Fetch Cookies)
    : Option (Scene Cookies State) :=
  match fetch.progress with
  | .sent => none
  | .failed =>
      some { scene with
        callers := scene.callers.set id { caller with outcome := some (.rejected .network) } }
  | .answered reply =>
      let (outcome, bodyUsed) := caller.call.proceed reply.response fetch.bodyUsed
      some { scene with
        callers := scene.callers.set id { caller with outcome := some outcome }
        fetches := scene.fetches.set caller.fetch { fetch with bodyUsed } }

/-- The scene after an event, when it can happen. -/
def Scene.after (scene : Scene Cookies State)
    : ClientEvent Cookies State → Option (Scene Cookies State)
  | .called call => some (scene.begin call)
  | .handled id reply next =>
      match scene.fetches[id]? with
      | some fetch =>
          match fetch.progress with
          | .sent => some (scene.advance id fetch (.answered reply) next)
          | _ => none
      | none => none
  | .lost id =>
      match scene.fetches[id]? with
      | some fetch =>
          if fetch.settled then none else some (scene.advance id fetch .failed scene.server)
      | none => none
  | .settled id =>
      match scene.fetches[id]? with
      | some fetch =>
          if fetch.settled then none
          else
            match fetch.progress with
            | .sent => none
            | .answered reply => some (scene.settle id fetch reply.setCookie)
            | .failed => some (scene.settle id fetch (fun cookies => cookies))
      | none => none
  | .resumed id =>
      match scene.callers[id]? with
      | some caller =>
          match caller.outcome, scene.fetches[caller.fetch]? with
          | none, some fetch => if fetch.settled then scene.resume id caller fetch else none
          | _, _ => none
      | none => none
  | .elsewhere cookies server => some { scene with cookies, server }

/-- The server handles a request as it may in its state; everything else is free. -/
def Server.Permits (server : Server Cookies State) (scene : Scene Cookies State)
    : ClientEvent Cookies State → Prop
  | .handled id reply next =>
      ∀ fetch, scene.fetches[id]? = some fetch →
        server.handles fetch.call fetch.cookies scene.server reply next
  | _ => True

/-- One event of a client and its surroundings. -/
def Server.Step (server : Server Cookies State) (before : Scene Cookies State)
    (event : ClientEvent Cookies State) (after : Scene Cookies State)
    : Prop :=
  server.Permits before event ∧ before.after event = some after

/-- A client that has made no call yet. -/
def Scene.fresh (cookies : Cookies) (server : State) : Scene Cookies State :=
  { cookies, server, inflight := fun _ => none, fetches := [], callers := [] }

/-- How a call settles with what has come of its request, the body used before or not. -/
def ClientCall.outcome (call : ClientCall) (used : Bool) : Progress Cookies → Option Outcome
  | .sent => none
  | .failed => some (.rejected .network)
  | .answered reply => some (call.proceed reply.response used).1

/-- Whether the body of its request is used after a call has gone on. -/
def ClientCall.uses (call : ClientCall) (used : Bool) : Progress Cookies → Bool
  | .answered reply => (call.proceed reply.response used).2
  | _ => used

/-- How a call that has its answer to itself settles. -/
abbrev ClientCall.alone (call : ClientCall) : Progress Cookies → Option Outcome :=
  call.outcome false

-----------------------------------------------------------------------------------------
-- What each event does
-----------------------------------------------------------------------------------------

section Events

variable {before after : Scene Cookies State} {call : ClientCall} {id : Nat}

/-- A call joins a request on the wire under its key. -/
theorem Scene.begin_joins {existing : Nat}
    (shared : call.dedupKey.bind before.inflight = some existing)
    : before.begin call = { before with
        callers := before.callers ++
          [{ call, fetch := existing, cookies := before.cookies, outcome := none }] } := by
  simp only [Scene.begin, Scene.request, shared]

/-- A call with no request to join sends its own. -/
theorem Scene.begin_sends (alone : call.dedupKey.bind before.inflight = none)
    : before.begin call = { before with
        fetches := before.fetches ++ [Fetch.started call before.cookies]
        inflight := fun key =>
          if call.dedupKey = some key then some before.fetches.length else before.inflight key
        callers := before.callers ++
          [{ call, fetch := before.fetches.length, cookies := before.cookies, outcome := none }] } := by
  simp only [Scene.begin, Scene.request, alone]

theorem Scene.after_handled {reply : Reply Cookies} {next : State}
    (taken : before.after (.handled id reply next) = some after)
    : ∃ fetch, before.fetches[id]? = some fetch ∧ fetch.progress = .sent
        ∧ after = before.advance id fetch (.answered reply) next := by
  simp only [Scene.after] at taken
  split at taken
  · next fetch there =>
      split at taken
      · next sent => exact ⟨fetch, there, sent, (Option.some.inj taken).symm⟩
      · cases taken
  · cases taken

theorem Scene.after_lost (taken : before.after (.lost id) = some after)
    : ∃ fetch, before.fetches[id]? = some fetch ∧ fetch.settled = false
        ∧ after = before.advance id fetch .failed before.server := by
  simp only [Scene.after] at taken
  split at taken
  · next fetch there =>
      split at taken
      · cases taken
      · next unsettled =>
          exact ⟨fetch, there, by simpa using unsettled, (Option.some.inj taken).symm⟩
  · cases taken

theorem Scene.after_settled (taken : before.after (.settled id) = some after)
    : ∃ fetch setCookie, before.fetches[id]? = some fetch ∧ fetch.settled = false
        ∧ fetch.progress ≠ .sent ∧ after = before.settle id fetch setCookie := by
  simp only [Scene.after] at taken
  split at taken
  · next fetch there =>
      split at taken
      · cases taken
      · next unsettled =>
          have open' : fetch.settled = false := by simpa using unsettled
          split at taken
          · cases taken
          · next known =>
              exact ⟨fetch, _, there, open', by simp [known], (Option.some.inj taken).symm⟩
          · next known =>
              exact ⟨fetch, _, there, open', by simp [known], (Option.some.inj taken).symm⟩
  · cases taken

/-- A call that goes on settles with the answer of its request, whose body it may use. -/
theorem Scene.after_resumed (taken : before.after (.resumed id) = some after)
    : ∃ caller fetch, before.callers[id]? = some caller ∧ caller.outcome = none
        ∧ before.fetches[caller.fetch]? = some fetch ∧ fetch.settled = true
        ∧ after = { before with
            callers := before.callers.set id
              { caller with outcome := caller.call.outcome fetch.bodyUsed fetch.progress }
            fetches := before.fetches.set caller.fetch
              { fetch with bodyUsed := caller.call.uses fetch.bodyUsed fetch.progress } } := by
  simp only [Scene.after] at taken
  split at taken
  · next caller there =>
      split at taken
      · next fetch unsettled fetched =>
          split at taken
          · next settled =>
              refine ⟨caller, fetch, there, unsettled, fetched, settled, ?_⟩
              simp only [Scene.resume] at taken
              split at taken
              · cases taken
              · next known =>
                  have kept : before.fetches.set caller.fetch { fetch with bodyUsed := fetch.bodyUsed }
                        = before.fetches := by
                      obtain ⟨inside, same⟩ := List.getElem?_eq_some_iff.mp fetched
                      rw [← same, List.set_getElem_self]
                  rw [← Option.some.inj taken, known]
                  simp only [ClientCall.outcome, ClientCall.uses, ← known, kept]
              · next reply known =>
                  rw [← Option.some.inj taken]
                  simp only [ClientCall.outcome, ClientCall.uses, known]
          · cases taken
      · cases taken
  · cases taken

/-- The request stays, with its cookies; the server's answer is one it may give in its state at
that moment. By cases on the event.
-/
theorem Server.Step.fetch {server : Server Cookies State} {event : ClientEvent Cookies State}
    {fetch : Fetch Cookies} (taken : server.Step before event after)
    (there : before.fetches[id]? = some fetch)
    : ∃ next, after.fetches[id]? = some next ∧ next.call = fetch.call ∧ next.cookies = fetch.cookies
        ∧ (next.progress = fetch.progress ∨ next.progress = .failed
          ∨ fetch.progress = .sent ∧ ∃ reply state, next.progress = .answered reply
            ∧ server.handles fetch.call fetch.cookies before.server reply state) := by
  obtain ⟨permitted, taken⟩ := taken
  have inside : id < before.fetches.length := (List.getElem?_eq_some_iff.mp there).1
  -- What holds of the request named by the event holds of this one when the two are the same.
  have replaced {at' : Nat} {old new : Fetch Cookies} (found : before.fetches[at']? = some old)
      : (before.fetches.set at' new)[id]? = some new ∧ old = fetch
        ∨ (before.fetches.set at' new)[id]? = some fetch := by
    by_cases here : at' = id
    · subst here
      exact .inl ⟨List.getElem?_set_self inside, Option.some.inj (found.symm.trans there)⟩
    · exact .inr (by rw [List.getElem?_set_ne here, there])
  cases event with
  | called call =>
      rw [← Option.some.inj taken]
      refine ⟨fetch, ?_, rfl, rfl, .inl rfl⟩
      cases joined : call.dedupKey.bind before.inflight with
      | some existing => rw [Scene.begin_joins joined, there]
      | none => rw [Scene.begin_sends joined, List.getElem?_append_left inside, there]
  | handled at' reply state =>
      obtain ⟨old, found, sent, rfl⟩ := Scene.after_handled taken
      rcases replaced found with ⟨now, rfl⟩ | now
      · exact ⟨_, now, rfl, rfl, .inr (.inr ⟨sent, reply, state, rfl, permitted old found⟩)⟩
      · exact ⟨fetch, now, rfl, rfl, .inl rfl⟩
  | lost at' =>
      obtain ⟨old, found, -, rfl⟩ := Scene.after_lost taken
      rcases replaced found with ⟨now, rfl⟩ | now
      · exact ⟨_, now, rfl, rfl, .inr (.inl rfl)⟩
      · exact ⟨fetch, now, rfl, rfl, .inl rfl⟩
  | settled at' =>
      obtain ⟨old, setCookie, found, -, -, rfl⟩ := Scene.after_settled taken
      rcases replaced found with ⟨now, rfl⟩ | now
      · exact ⟨_, now, rfl, rfl, .inl rfl⟩
      · exact ⟨fetch, now, rfl, rfl, .inl rfl⟩
  | resumed at' =>
      obtain ⟨caller, old, -, -, found, -, rfl⟩ := Scene.after_resumed taken
      rcases replaced found with ⟨now, rfl⟩ | now
      · exact ⟨_, now, rfl, rfl, .inl rfl⟩
      · exact ⟨fetch, now, rfl, rfl, .inl rfl⟩
  | elsewhere cookies state =>
      rw [← Option.some.inj taken]
      exact ⟨fetch, there, rfl, rfl, .inl rfl⟩

/-- The call stays, and settles with what has come of its request by then; by cases on the
event.
-/
theorem Server.Step.caller {server : Server Cookies State} {event : ClientEvent Cookies State}
    {caller : Caller Cookies} (taken : server.Step before event after)
    (there : before.callers[id]? = some caller)
    : ∃ next, after.callers[id]? = some next ∧ next.call = caller.call
        ∧ next.fetch = caller.fetch
        ∧ (next.outcome = caller.outcome
          ∨ ∃ fetch, before.fetches[caller.fetch]? = some fetch
            ∧ next.outcome = caller.call.outcome fetch.bodyUsed fetch.progress) := by
  obtain ⟨-, taken⟩ := taken
  have inside : id < before.callers.length := (List.getElem?_eq_some_iff.mp there).1
  cases event with
  | called call =>
      rw [← Option.some.inj taken]
      refine ⟨caller, ?_, rfl, rfl, .inl rfl⟩
      cases joined : call.dedupKey.bind before.inflight with
      | some existing => rw [Scene.begin_joins joined, List.getElem?_append_left inside, there]
      | none => rw [Scene.begin_sends joined, List.getElem?_append_left inside, there]
  | handled at' reply state =>
      obtain ⟨-, -, -, rfl⟩ := Scene.after_handled taken
      exact ⟨caller, there, rfl, rfl, .inl rfl⟩
  | lost at' =>
      obtain ⟨-, -, -, rfl⟩ := Scene.after_lost taken
      exact ⟨caller, there, rfl, rfl, .inl rfl⟩
  | settled at' =>
      obtain ⟨-, -, -, -, -, rfl⟩ := Scene.after_settled taken
      exact ⟨caller, there, rfl, rfl, .inl rfl⟩
  | resumed at' =>
      obtain ⟨other, fetch, found, -, fetched, -, rfl⟩ := Scene.after_resumed taken
      by_cases here : at' = id
      · subst here
        cases Option.some.inj (found.symm.trans there)
        exact ⟨_, List.getElem?_set_self inside, rfl, rfl, .inr ⟨fetch, fetched, rfl⟩⟩
      · exact ⟨caller, by rw [List.getElem?_set_ne here, there], rfl, rfl, .inl rfl⟩
  | elsewhere cookies state =>
      rw [← Option.some.inj taken]
      exact ⟨caller, there, rfl, rfl, .inl rfl⟩

end Events

end WorkersAuth.Client

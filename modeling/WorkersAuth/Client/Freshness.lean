import WorkersAuth.Client.SharedAnswers

/-! What a `session` call reports, against the state of the server from the call on.
A call that sends its own request reports what the server held when it handled that request.
One that joins a request reports the same, when the request was not handled too early and does
not carry cookies that the browser has replaced since.
-/

namespace WorkersAuth.Client

open Atomic

variable {Cookies State : Type} {server : Server Cookies State}
  {before after called now : Scene Cookies State} {events earlier later : List (ClientEvent Cookies State)}
  {cookies : Cookies} {state : State} {value : Option Json} {reply : Reply Cookies}

/-- An answer that says whether there is a session. -/
def Reply.Tells (reply : Reply Cookies) : Prop :=
  reply.response.status = 401 ∨ reply.response.ok = true

/-- The server may have given this answer to these cookies at some moment of the history. -/
def Seen (server : Server Cookies State) (cookies : Cookies) (called : Scene Cookies State)
    (later : List (ClientEvent Cookies State)) (after : Scene Cookies State) (reply : Reply Cookies)
    : Prop :=
  ∃ front back moment next, later = front ++ back ∧ Sequence server.Step called front moment
    ∧ Sequence server.Step moment back after
    ∧ server.handles .session cookies moment.server reply next

/-- A report that is what the server would have told a lone call, with these cookies, at some
moment of the history.
-/
def Reflects (server : Server Cookies State) (cookies : Cookies) (called : Scene Cookies State)
    (later : List (ClientEvent Cookies State)) (after : Scene Cookies State) (value : Option Json)
    : Prop :=
  ∃ reply, Seen server cookies called later after reply
    ∧ ClientCall.session.alone (.answered reply) = some (.resolved value)

/-- Whatever a server may answer these cookies, it may answer those. -/
def ServesAs (server : Server Cookies State) (carried held : Cookies) : Prop :=
  ∀ state reply next, server.handles .session carried state reply next → reply.Tells →
    ∃ other, server.handles .session held state reply other

/-- A request that carries these cookies is good for a call made with others: its answer is
granted, or still to come and no different for the carried ones.
-/
def GoodFor (server : Server Cookies State) (held : Cookies) (granted : Reply Cookies → Prop)
    (fetch : Fetch Cookies)
    : Prop :=
  match fetch.progress with
  | .sent => ServesAs server fetch.cookies held
  | .answered reply => reply.Tells → granted reply
  | .failed => True

/-- What was seen is seen still after one more event. -/
theorem Seen.snoc {event : ClientEvent Cookies State} {next : Scene Cookies State}
    (seen : Seen server cookies called later now reply) (taken : server.Step now event next)
    : Seen server cookies called (later ++ [event]) next reply := by
  obtain ⟨front, back, moment, state, rfl, early, late, handled⟩ := seen
  refine ⟨front, back ++ [event], moment, state, by simp, early, ?_, handled⟩
  exact Sequence.append_iff.mpr ⟨now, late, Sequence.cons_iff.mpr ⟨next, taken, .nil⟩⟩

/-- A call that resolves has read an answer that tells, as a lone call reads it; by cases on
the answer.
-/
theorem session_resolved {used : Bool} {progress : Progress Cookies}
    (resolved : ClientCall.session.outcome used progress = some (.resolved value))
    : ∃ reply, progress = .answered reply ∧ reply.Tells
        ∧ ClientCall.session.alone (.answered reply) = some (.resolved value) := by
  cases progress with
  | sent => simp [ClientCall.outcome] at resolved
  | failed => simp [ClientCall.outcome] at resolved
  | answered reply =>
      refine ⟨reply, rfl, ?_⟩
      simp only [ClientCall.outcome, ClientCall.proceed, Option.some.injEq] at resolved ⊢
      by_cases unauthorized : reply.response.status = 401
      · exact ⟨.inl unauthorized, by simpa [unauthorized] using resolved⟩
      · cases ok : reply.response.ok with
        | false => simp [unauthorized, ok] at resolved
        | true =>
            refine ⟨.inr ok, ?_⟩
            cases used with
            | false => simpa [ok, unauthorized] using resolved
            | true => simp [unauthorized, ok, ClientResponse.readJson] at resolved

/-- A `session` call from when it was made: the request it awaits stays good for it, and what
it has reported reflects the server.
-/
structure Watched (server : Server Cookies State) (cookies : Cookies) (called : Scene Cookies State)
    (id index : Nat) (later : List (ClientEvent Cookies State)) (now : Scene Cookies State)
    : Prop where
  run : Sequence server.Step called later now
  request : ∃ fetch, now.fetches[id]? = some fetch ∧ fetch.call = .session
    ∧ GoodFor server cookies (Seen server cookies called later now) fetch
  call : ∃ caller, now.callers[index]? = some caller ∧ caller.fetch = id ∧ caller.call = .session
    ∧ ∀ value, caller.outcome = some (.resolved value) →
        Reflects server cookies called later now value

/-- The request of a watched call through one event: the server's answer is seen as it is
given.
-/
theorem Watched.request_step {id index : Nat} {event : ClientEvent Cookies State}
    {next : Scene Cookies State} (watched : Watched server cookies called id index later now)
    (taken : server.Step now event next)
    : ∃ fetch, next.fetches[id]? = some fetch ∧ fetch.call = .session
        ∧ GoodFor server cookies (Seen server cookies called (later ++ [event]) next) fetch := by
  obtain ⟨fetch, there, reads, good⟩ := watched.request
  obtain ⟨fetch', there', reads', carries, come⟩ := taken.fetch there
  refine ⟨fetch', there', reads'.trans reads, ?_⟩
  rcases come with same | failed | ⟨sent, reply, state, answered, handled⟩
  · unfold GoodFor at good ⊢
    rw [same, carries]
    split at good
    · exact good
    · exact fun tells => (good tells).snoc taken
    · trivial
  · simp only [GoodFor, failed]
  · simp only [GoodFor, sent] at good
    simp only [GoodFor, answered]
    intro tells
    rw [reads] at handled
    obtain ⟨other, told⟩ := good _ _ _ handled tells
    have seen : Seen server cookies called later now reply :=
      ⟨later, [], now, other, by simp, watched.run, .nil, told⟩
    exact seen.snoc taken

/-- A watched call through one event: it reports what its request was answered. -/
theorem Watched.step {id index : Nat} {event : ClientEvent Cookies State}
    {next : Scene Cookies State} (watched : Watched server cookies called id index later now)
    (taken : server.Step now event next)
    : Watched server cookies called id index (later ++ [event]) next := by
  refine ⟨?_, watched.request_step taken, ?_⟩
  · exact Sequence.append_iff.mpr ⟨now, watched.run, Sequence.cons_iff.mpr ⟨next, taken, .nil⟩⟩
  · obtain ⟨fetch, there, reads, good⟩ := watched.request
    obtain ⟨caller, found, awaits, calls, reported⟩ := watched.call
    obtain ⟨caller', found', calls', awaits', settles⟩ := taken.caller found
    refine ⟨caller', found', awaits'.trans awaits, calls'.trans calls, ?_⟩
    intro value resolved
    rcases settles with same | ⟨fetch', there', outcome⟩
    · obtain ⟨reply, seen, alone⟩ := reported value (same.symm.trans resolved)
      exact ⟨reply, seen.snoc taken, alone⟩
    · rw [awaits] at there'
      cases Option.some.inj (there'.symm.trans there)
      rw [outcome, calls] at resolved
      obtain ⟨reply, answered, tells, alone⟩ := session_resolved resolved
      simp only [GoodFor, answered] at good
      exact ⟨reply, (good tells).snoc taken, alone⟩

end WorkersAuth.Client

namespace WorkersAuth.Sample

open Client

end WorkersAuth.Sample

namespace WorkersAuth.Client

open Atomic Sample

end WorkersAuth.Client

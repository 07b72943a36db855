import WorkersAuth.Client.Requests

/-! What the calls that share a request make of its answer.
The first of them to read the body gets what a lone call would; a later one finds the body
used. So they all settle alike unless two of them share an answer whose body matters.
-/

namespace WorkersAuth.Client

open Atomic

variable {Cookies State : Type} {server : Server Cookies State}
  {before after : Scene Cookies State} {callers : List (Caller Cookies)}
  {id : Nat} {fetch : Fetch Cookies} {caller new : Caller Cookies} {call : ClientCall}

/-- This call awaits this request. -/
def Awaits (callers : List (Caller Cookies)) (id index : Nat) (caller : Caller Cookies) : Prop :=
  callers[index]? = some caller ∧ caller.fetch = id

/-- Every call awaits its own request. -/
theorem awaits_self {index : Nat} (there : callers[index]? = some caller)
    : Awaits callers caller.fetch index caller :=
  ⟨there, rfl⟩

/-- A body that has not been used in going on was not needed, by cases on the call. -/
theorem ClientCall.outcome_unused {progress : Progress Cookies}
    (unused : call.uses false progress = false)
    : call.outcome false progress = call.outcome true progress := by
  cases progress with
  | sent => rfl
  | failed => rfl
  | answered reply =>
      cases call <;>
        grind [ClientCall.outcome, ClientCall.uses, ClientCall.proceed, ClientResponse.readJson]

/-- A used body stays used, by cases on the call. -/
theorem ClientCall.uses_used (progress : Progress Cookies) : call.uses true progress = true := by
  cases progress with
  | sent => rfl
  | failed => rfl
  | answered reply =>
      cases call <;> grind [ClientCall.uses, ClientCall.proceed, ClientResponse.readJson]

/-- The calls of a client after one of them has been replaced. -/
theorem awaits_set {index at' : Nat} {old : Caller Cookies} (there : callers[at']? = some old)
    : Awaits (callers.set at' new) id index caller
      ↔ index = at' ∧ caller = new ∧ new.fetch = id
        ∨ index ≠ at' ∧ Awaits callers id index caller := by
  have inside : at' < callers.length := (List.getElem?_eq_some_iff.mp there).1
  by_cases here : index = at'
  · subst here
    simp only [Awaits, List.getElem?_set_self inside, Option.some.injEq]
    constructor
    · intro awaits
      exact .inl ⟨trivial, awaits.1.symm, by rw [awaits.1]; exact awaits.2⟩
    · rintro (⟨-, rfl, same⟩ | ⟨off, -⟩)
      · exact ⟨rfl, same⟩
      · exact absurd rfl off
  · have kept : (callers.set at' new)[index]? = callers[index]? :=
      List.getElem?_set_ne (Ne.symm here)
    simp [Awaits, kept, here]

/-- The calls of a client after one more has been made. -/
theorem awaits_append {index : Nat}
    : Awaits (callers ++ [new]) id index caller
      ↔ index = callers.length ∧ caller = new ∧ new.fetch = id
        ∨ Awaits callers id index caller := by
  simp only [Awaits, List.getElem?_append]
  by_cases inside : index < callers.length
  · simp [inside, inside.ne]
  · by_cases last : index = callers.length
    · subst last
      simp only [Nat.lt_irrefl, if_false, Nat.sub_self, List.getElem?_singleton]
      constructor
      · rintro ⟨same, fetched⟩
        have same : new = caller := by simpa using same
        exact .inl ⟨trivial, same.symm, same ▸ fetched⟩
      · rintro (⟨-, rfl, fetched⟩ | ⟨there, -⟩)
        · exact ⟨by simp, fetched⟩
        · simp at there
    · have beyond : index - callers.length ≠ 0 := by omega
      simp [inside, last, beyond]

/-- What a request has meant to its calls so far. -/
structure Tally (callers : List (Caller Cookies)) (id : Nat) (fetch : Fetch Cookies) : Prop where
  early : fetch.settled = false → fetch.bodyUsed = false
    ∧ ∀ index caller, Awaits callers id index caller → caller.outcome = none
  known : fetch.settled = true → fetch.progress ≠ .sent
  same : ∀ index caller, Awaits callers id index caller → caller.call = fetch.call
  unread : fetch.bodyUsed = false → ∀ index caller, Awaits callers id index caller →
    caller.outcome ≠ none → caller.outcome = fetch.call.outcome true fetch.progress
  read : fetch.bodyUsed = true →
    ∃ index caller, Awaits callers id index caller ∧ caller.outcome ≠ none
  alike : ∀ index caller, Awaits callers id index caller → caller.outcome ≠ none →
    caller.outcome = fetch.call.alone fetch.progress
      ∨ caller.outcome = fetch.call.outcome true fetch.progress
        ∧ ∃ other further, other ≠ index ∧ Awaits callers id other further
  apart : ∀ index caller other further, Awaits callers id index caller →
    Awaits callers id other further → index ≠ other → caller.outcome ≠ none →
    further.outcome ≠ none →
    caller.outcome = fetch.call.outcome true fetch.progress
      ∨ further.outcome = fetch.call.outcome true fetch.progress

/-- A request just sent has no calls yet, and one whose calls are elsewhere has none. -/
theorem Tally.sent (cookies : Cookies) (none' : ∀ index caller, ¬ Awaits callers id index caller)
    : Tally callers id (Fetch.started call cookies) where
  early _ := ⟨rfl, fun index caller awaits => absurd awaits (none' index caller)⟩
  known settled := by cases settled
  same index caller awaits := absurd awaits (none' index caller)
  unread _ index caller awaits := absurd awaits (none' index caller)
  read used := by cases used
  alike index caller awaits := absurd awaits (none' index caller)
  apart index caller _ _ awaits := absurd awaits (none' index caller)

/-- One more call, which has not settled, changes nothing for the others. -/
theorem Tally.board (tally : Tally callers id fetch) (waiting : new.outcome = none)
    (calls : new.fetch = id → new.call = fetch.call)
    : Tally (callers ++ [new]) id fetch := by
  have older {index : Nat} {caller : Caller Cookies} (awaits : Awaits (callers ++ [new]) id index caller)
      (settled : caller.outcome ≠ none) : Awaits callers id index caller := by
    rcases awaits_append.mp awaits with ⟨-, rfl, -⟩ | awaits
    · exact absurd waiting settled
    · exact awaits
  have still {index : Nat} {caller : Caller Cookies} (awaits : Awaits callers id index caller)
      : Awaits (callers ++ [new]) id index caller := awaits_append.mpr (.inr awaits)
  constructor
  case early =>
    intro early
    refine ⟨(tally.early early).1, ?_⟩
    intro index caller awaits
    rcases awaits_append.mp awaits with ⟨-, rfl, -⟩ | awaits
    · exact waiting
    · exact (tally.early early).2 index caller awaits
  case known => exact tally.known
  case same =>
    intro index caller awaits
    rcases awaits_append.mp awaits with ⟨-, rfl, fetched⟩ | awaits
    · exact calls fetched
    · exact tally.same index caller awaits
  case unread =>
    intro unused index caller awaits settled
    exact tally.unread unused index caller (older awaits settled) settled
  case read =>
    intro used
    obtain ⟨index, caller, awaits, settled⟩ := tally.read used
    exact ⟨index, caller, still awaits, settled⟩
  case alike =>
    intro index caller awaits settled
    rcases tally.alike index caller (older awaits settled) settled with alone | ⟨late, other, further, apart, shares⟩
    · exact .inl alone
    · exact .inr ⟨late, other, further, apart, still shares⟩
  case apart =>
    intro index caller other further awaits shares apart settled settled'
    exact tally.apart index caller other further (older awaits settled) (older shares settled') apart
      settled settled'

/-- Until its promise settles, what comes of a request is no call's business. -/
theorem Tally.advance {progress : Progress Cookies} {settled : Bool}
    (tally : Tally callers id fetch) (early : fetch.settled = false)
    (known : settled = true → progress ≠ .sent)
    : Tally callers id { fetch with progress, settled } := by
  obtain ⟨unused, waiting⟩ := tally.early early
  constructor
  case early => exact fun _ => ⟨unused, waiting⟩
  case known => exact known
  case same => exact tally.same
  case unread =>
    intro _ index caller awaits settled
    exact absurd (waiting index caller awaits) settled
  case read =>
    intro used
    exact absurd (unused.symm.trans used) (by decide)
  case alike =>
    intro index caller awaits settled
    exact absurd (waiting index caller awaits) settled
  case apart =>
    intro index caller _ _ awaits _ _ settled
    exact absurd (waiting index caller awaits) settled

/-- A call of another request going on changes nothing. -/
theorem Tally.elsewhere {at' : Nat} (tally : Tally callers id fetch)
    (there : callers[at']? = some caller) (other : caller.fetch ≠ id) (same : new.fetch = caller.fetch)
    : Tally (callers.set at' new) id fetch := by
  have iff (index : Nat) (further : Caller Cookies)
      : Awaits (callers.set at' new) id index further ↔ Awaits callers id index further := by
    rw [awaits_set there]
    constructor
    · rintro (⟨-, -, fetched⟩ | ⟨-, awaits⟩)
      · exact absurd (same.symm.trans fetched) other
      · exact awaits
    · intro awaits
      refine .inr ⟨?_, awaits⟩
      rintro rfl
      rw [Awaits, there] at awaits
      exact other (Option.some.inj awaits.1 ▸ awaits.2)
  obtain ⟨early, known, calls, unread, read, alike, apart⟩ := tally
  constructor <;> simpa only [iff]

/-- A call going on: the first to need the body has it, and a later one finds it used. -/
theorem Tally.resume {at' : Nat} (tally : Tally callers id fetch)
    (awaits : Awaits callers id at' caller) (waiting : caller.outcome = none)
    (landed : fetch.settled = true)
    : Tally (callers.set at'
          { caller with outcome := caller.call.outcome fetch.bodyUsed fetch.progress }) id
        { fetch with bodyUsed := caller.call.uses fetch.bodyUsed fetch.progress } := by
  have calls := tally.same at' caller awaits
  rw [calls]
  have older {index : Nat} {further : Caller Cookies} (shares : Awaits callers id index further)
      (settled : further.outcome ≠ none) : index ≠ at' := by
    rintro rfl
    rw [Awaits, awaits.1] at shares
    exact settled (Option.some.inj shares.1 ▸ waiting)
  constructor
  case early =>
    intro early
    exact absurd (landed.symm.trans early) (by decide)
  case known => exact tally.known
  case same =>
    intro index further shares
    rcases (awaits_set awaits.1).mp shares with ⟨-, rfl, -⟩ | ⟨-, shares⟩
    · rfl
    · exact tally.same index further shares
  case unread =>
    intro unused index further shares settled
    have before : fetch.bodyUsed = false := by
      cases used : fetch.bodyUsed with
      | false => rfl
      | true => rw [used, ClientCall.uses_used] at unused; cases unused
    rw [before] at unused
    rcases (awaits_set awaits.1).mp shares with ⟨-, rfl, -⟩ | ⟨-, shares⟩
    · simpa only [before] using ClientCall.outcome_unused unused
    · exact tally.unread before index further shares settled
  case read =>
    intro _
    refine ⟨at', _, (awaits_set awaits.1).mpr (.inl ⟨rfl, rfl, awaits.2⟩), ?_⟩
    have known := tally.known landed
    cases come : fetch.progress with
    | sent => exact absurd come known
    | failed => simp [ClientCall.outcome]
    | answered reply => simp [ClientCall.outcome]
  case alike =>
    intro index further shares settled
    rcases (awaits_set awaits.1).mp shares with ⟨here, rfl, -⟩ | ⟨off, shares⟩
    · cases used : fetch.bodyUsed with
      | false => exact .inl rfl
      | true =>
          -- The body has been used by a call that has settled, which is not this one.
          obtain ⟨other, reader, reads, done⟩ := tally.read used
          refine .inr ⟨rfl, other, reader, ?_, (awaits_set awaits.1).mpr (.inr ⟨?_, reads⟩)⟩
          · rw [here]
            exact older reads done
          · exact older reads done
    · rcases tally.alike index further shares settled with alone | ⟨late, other, reader, apart, reads⟩
      · exact .inl alone
      · refine .inr ⟨late, ?_⟩
        by_cases this : other = at'
        · subst this
          exact ⟨other, _, apart, (awaits_set awaits.1).mpr (.inl ⟨rfl, rfl, awaits.2⟩)⟩
        · exact ⟨other, reader, apart, (awaits_set awaits.1).mpr (.inr ⟨this, reads⟩)⟩
  case apart =>
    intro index first other second one two different settled settled'
    have late (used : fetch.bodyUsed = true) : fetch.call.outcome fetch.bodyUsed fetch.progress
        = fetch.call.outcome true fetch.progress := by rw [used]
    rcases (awaits_set awaits.1).mp one with ⟨here, rfl, -⟩ | ⟨-, one⟩
    · rcases (awaits_set awaits.1).mp two with ⟨there, rfl, -⟩ | ⟨-, two⟩
      · exact absurd (here.trans there.symm) different
      · cases used : fetch.bodyUsed with
        | false => exact .inr (tally.unread used other second two settled')
        | true => exact .inl rfl
    · rcases (awaits_set awaits.1).mp two with ⟨-, rfl, -⟩ | ⟨-, two⟩
      · cases used : fetch.bodyUsed with
        | false => exact .inl (tally.unread used index first one settled)
        | true => exact .inr rfl
      · exact tally.apart index first other second one two different settled settled'

-----------------------------------------------------------------------------------------
-- Every run
-----------------------------------------------------------------------------------------

/-- The requests of a client and the calls that await them. -/
structure Sharing (scene : Scene Cookies State) : Prop where
  tallies : ∀ (id : ℕ) (fetch : Fetch Cookies), scene.fetches[id]? = some fetch → Tally scene.callers id fetch
  aboard : ∀ (index : ℕ) (caller : Caller Cookies), scene.callers[index]? = some caller →
    caller.fetch < scene.fetches.length
  slot : ∀ key id, scene.inflight key = some id →
    ∃ fetch, scene.fetches[id]? = some fetch ∧ fetch.settled = false
      ∧ fetch.call.dedupKey = some key

/-- Only `session` calls share requests, and only with each other. -/
theorem ClientCall.dedupKey_inj {first second : ClientCall} {key : String}
    (one : first.dedupKey = some key) (two : second.dedupKey = some key)
    : first = second := by
  cases first <;> cases second <;> simp_all [ClientCall.dedupKey]

theorem sharing_fresh (cookies : Cookies) (state : State) : Sharing (Scene.fresh cookies state) where
  tallies id fetch there := by simp [Scene.fresh] at there
  aboard index caller there := by simp [Scene.fresh] at there
  slot key id there := by simp [Scene.fresh] at there

/-- The requests of a client after one of them has been replaced. -/
theorem getElem?_replaced {fetches : List (Fetch Cookies)} {at' index : Nat}
    {old new fetch : Fetch Cookies} (there : fetches[at']? = some old)
    (found : (fetches.set at' new)[index]? = some fetch)
    : index = at' ∧ fetch = new ∨ index ≠ at' ∧ fetches[index]? = some fetch := by
  have inside : at' < fetches.length := (List.getElem?_eq_some_iff.mp there).1
  by_cases here : index = at'
  · subst here
    rw [List.getElem?_set_self inside] at found
    exact .inl ⟨rfl, (Option.some.inj found).symm⟩
  · rw [List.getElem?_set_ne (Ne.symm here)] at found
    exact .inr ⟨here, found⟩

/-- A call joins a request of its own kind that has not settled, or sends one. -/
theorem Sharing.begin (sharing : Sharing before) (call : ClientCall) : Sharing (before.begin call) := by
  cases joined : call.dedupKey.bind before.inflight with
  | some existing =>
      obtain ⟨key, keyed, slot⟩ := Option.bind_eq_some_iff.mp joined
      obtain ⟨fetch, there, early, same⟩ := sharing.slot key existing slot
      rw [Scene.begin_joins joined]
      constructor
      case tallies =>
        intro id other found
        refine (sharing.tallies id other found).board rfl ?_
        rintro rfl
        rw [Option.some.inj (found.symm.trans there)]
        exact ClientCall.dedupKey_inj keyed same
      case aboard =>
        intro index caller found
        rcases awaits_append.mp (awaits_self found) with ⟨-, rfl, -⟩ | older
        · exact (List.getElem?_eq_some_iff.mp there).1
        · exact sharing.aboard index caller older.1
      case slot => exact sharing.slot
  | none =>
      rw [Scene.begin_sends joined]
      constructor
      case tallies =>
        intro id fetch found
        simp only [List.getElem?_append] at found
        split at found
        · next older =>
            refine (sharing.tallies id fetch found).board rfl ?_
            intro here
            exact absurd here (by simpa using older.ne')
        · next fresh =>
            have here : id = before.fetches.length := by
              have := (List.getElem?_eq_some_iff.mp found).1
              simp only [List.length_singleton] at this
              omega
            subst here
            have made : fetch = Fetch.started call before.cookies := by simpa using found.symm
            subst made
            refine Tally.board (Tally.sent _ ?_) rfl (fun _ => rfl)
            intro index caller awaits
            exact absurd awaits.2 (sharing.aboard index caller awaits.1).ne
      case aboard =>
        intro index caller found
        simp only [List.length_append, List.length_singleton]
        rcases awaits_append.mp (awaits_self found) with ⟨-, rfl, -⟩ | older
        · exact Nat.lt_succ_self _
        · exact Nat.lt_succ_of_lt (sharing.aboard index caller older.1)
      case slot =>
        intro key id there
        by_cases keyed : call.dedupKey = some key
        · simp only [keyed, if_true, Option.some.injEq] at there
          subst there
          exact ⟨Fetch.started call before.cookies, by simp, rfl, keyed⟩
        · simp only [keyed, if_false] at there
          obtain ⟨fetch, found, early, same⟩ := sharing.slot key id there
          refine ⟨fetch, ?_, early, same⟩
          rw [List.getElem?_append_left (List.getElem?_eq_some_iff.mp found).1]
          exact found

/-- What comes of a request before its promise settles. -/
theorem Sharing.advance {progress : Progress Cookies} {state : State} (sharing : Sharing before)
    (there : before.fetches[id]? = some fetch) (early : fetch.settled = false)
    : Sharing (before.advance id fetch progress state) := by
  constructor
  case tallies =>
    intro index other found
    rcases getElem?_replaced there found with ⟨rfl, rfl⟩ | ⟨-, found⟩
    · exact (sharing.tallies index fetch there).advance early (fun settled => by simp [early] at settled)
    · exact sharing.tallies index other found
  case aboard =>
    intro index caller found
    simpa [Scene.advance] using sharing.aboard index caller found
  case slot =>
    intro key index slot
    obtain ⟨other, found, open', same⟩ := sharing.slot key index slot
    by_cases here : index = id
    · subst here
      have same' : other = fetch := Option.some.inj (found.symm.trans there)
      subst same'
      refine ⟨_, List.getElem?_set_self (List.getElem?_eq_some_iff.mp there).1, open', same⟩
    · refine ⟨other, ?_, open', same⟩
      rw [Scene.advance, List.getElem?_set_ne (Ne.symm here)]
      exact found

/-- A request whose promise settles leaves the requests on the wire. -/
theorem Sharing.settle {setCookie : Cookies → Cookies} (sharing : Sharing before)
    (there : before.fetches[id]? = some fetch) (early : fetch.settled = false)
    (known : fetch.progress ≠ .sent)
    : Sharing (before.settle id fetch setCookie) := by
  constructor
  case tallies =>
    intro index other found
    rcases getElem?_replaced there found with ⟨rfl, rfl⟩ | ⟨-, found⟩
    · exact (sharing.tallies index fetch there).advance early (fun _ => known)
    · exact sharing.tallies index other found
  case aboard =>
    intro index caller found
    simpa [Scene.settle] using sharing.aboard index caller found
  case slot =>
    intro key index slot
    simp only [Scene.settle] at slot
    split at slot
    · cases slot
    · next other' =>
        obtain ⟨other, found, open', same⟩ := sharing.slot key index slot
        refine ⟨other, ?_, open', same⟩
        have off : index ≠ id := by
          rintro rfl
          exact other' (Option.some.inj (found.symm.trans there) ▸ same)
        rw [Scene.settle, List.getElem?_set_ne off.symm]
        exact found

/-- The calls and the requests stay in step, by cases on the event. -/
theorem Sharing.step {event : ClientEvent Cookies State} (sharing : Sharing before)
    (taken : server.Step before event after)
    : Sharing after := by
  obtain ⟨-, taken⟩ := taken
  cases event with
  | called call =>
      rw [← Option.some.inj taken]
      exact sharing.begin call
  | handled id reply next =>
      obtain ⟨fetch, there, sent, rfl⟩ := Scene.after_handled taken
      refine sharing.advance there ?_
      cases early : fetch.settled with
      | false => rfl
      | true => exact absurd sent ((sharing.tallies id fetch there).known early)
  | lost id =>
      obtain ⟨fetch, there, early, rfl⟩ := Scene.after_lost taken
      exact sharing.advance there early
  | settled id =>
      obtain ⟨fetch, setCookie, there, early, known, rfl⟩ := Scene.after_settled taken
      exact sharing.settle there early known
  | resumed at' =>
      obtain ⟨caller, fetch, there, waiting, fetched, landed, rfl⟩ := Scene.after_resumed taken
      have tally := sharing.tallies caller.fetch fetch fetched
      constructor
      case tallies =>
        intro id other found
        rcases getElem?_replaced fetched found with ⟨rfl, rfl⟩ | ⟨off, found⟩
        · exact tally.resume ⟨there, rfl⟩ waiting landed
        · exact (sharing.tallies id other found).elsewhere there off.symm rfl
      case aboard =>
        intro index further found
        rw [List.length_set]
        rcases (awaits_set there).mp (awaits_self found) with ⟨-, rfl, -⟩ | ⟨-, older⟩
        · exact sharing.aboard at' caller there
        · exact sharing.aboard index further older.1
      case slot =>
        intro key id slot
        obtain ⟨other, found, early, same⟩ := sharing.slot key id slot
        refine ⟨other, ?_, early, same⟩
        have off : id ≠ caller.fetch := by
          rintro rfl
          rw [Option.some.inj (found.symm.trans fetched), landed] at early
          cases early
        rw [List.getElem?_set_ne off.symm]
        exact found
  | elsewhere cookies state =>
      rw [← Option.some.inj taken]
      exact ⟨sharing.tallies, sharing.aboard, sharing.slot⟩

/-- And so they do in every history, step by step. -/
theorem sharing_run {cookies : Cookies} {state : State} {events : List (ClientEvent Cookies State)}
    (run : Sequence server.Step (Scene.fresh cookies state) events after)
    : Sharing after :=
  run.keeps Sharing (fun _ _ _ _ taken sharing => sharing.step taken) (sharing_fresh cookies state)

-----------------------------------------------------------------------------------------
-- Calls that overlap
-----------------------------------------------------------------------------------------

/-- No two calls await this request. -/
def Unshared (callers : List (Caller Cookies)) (id : Nat) : Prop :=
  ∀ index caller other further, Awaits callers id index caller → Awaits callers id other further →
    index = other

/-- The calls that await this request have settled, those that have, as a lone call would. -/
def ServedAlike (callers : List (Caller Cookies)) (id : Nat) (progress : Progress Cookies) : Prop :=
  ∀ index caller, Awaits callers id index caller → caller.outcome ≠ none →
    caller.outcome = ClientCall.session.alone progress

/-- What comes of the request is told without the body: no answer, a 401, or an error whose
body names none.
-/
def BodyUnneeded : Progress Cookies → Prop
  | .sent => True
  | .failed => True
  | .answered reply =>
      reply.response.status = 401
        ∨ reply.response.ok = false ∧ reply.response.errorCode false = "unknown"

/-- A `session` call that finds the body used settles as a lone one exactly when it does not
need the body, by cases on the answer.
-/
theorem session_outcome_used (progress : Progress Cookies)
    : ClientCall.session.outcome true progress = ClientCall.session.alone progress
      ↔ BodyUnneeded progress := by
  cases progress with
  | sent => simp [BodyUnneeded, ClientCall.outcome]
  | failed => simp [BodyUnneeded, ClientCall.outcome]
  | answered reply =>
      simp only [BodyUnneeded, ClientCall.outcome, ClientCall.proceed, Option.some.injEq]
      by_cases unauthorized : reply.response.status = 401
      · simp [unauthorized]
      · cases ok : reply.response.ok with
        | false =>
            have used : reply.response.errorCode true = "unknown" := rfl
            simp [unauthorized, parseError, used, eq_comm]
        | true =>
            cases json : reply.response.json <;>
              simp [unauthorized, ClientResponse.readJson, json]

/-- The calls that share a request settle alike when it has one call or its body is not
needed; and when all of them have settled alike, one of the two is so.
-/
theorem session_servedAlike {cookies : Cookies} {state : State}
    {events : List (ClientEvent Cookies State)}
    (run : Sequence server.Step (Scene.fresh cookies state) events after)
    (found : after.fetches[id]? = some fetch) (reads : fetch.call = .session)
    : (Unshared after.callers id ∨ BodyUnneeded fetch.progress →
        ServedAlike after.callers id fetch.progress)
      ∧ ((∀ index caller, Awaits after.callers id index caller → caller.outcome ≠ none) →
          ServedAlike after.callers id fetch.progress →
          Unshared after.callers id ∨ BodyUnneeded fetch.progress) := by
  have tally := (sharing_run run).tallies id fetch found
  constructor
  case left =>
    intro spared index caller awaits settled
    rcases tally.alike index caller awaits settled with alone | ⟨late, other, further, apart, shares⟩
    · rwa [reads] at alone
    · rcases spared with unshared | unneeded
      · exact absurd (unshared other further index caller shares awaits) apart
      · rw [late, reads]
        exact (session_outcome_used fetch.progress).mpr unneeded
  case right =>
    intro settled alike
    by_cases unshared : Unshared after.callers id
    · exact .inl unshared
    · simp only [Unshared, not_forall] at unshared
      obtain ⟨index, caller, other, further, awaits, shares, apart⟩ := unshared
      refine .inr ((session_outcome_used fetch.progress).mp ?_)
      have late := tally.apart index caller other further awaits shares apart
        (settled index caller awaits) (settled other further shares)
      rw [reads] at late
      rcases late with late | late
      · rw [← late, alike index caller awaits (settled index caller awaits)]
      · rw [← late, alike other further shares (settled other further shares)]

end WorkersAuth.Client

namespace WorkersAuth.Sample

open Atomic Client

/-- A server that may answer anything. -/
def anyServer : Server Unit Unit where
  handles _ _ _ _ _ := True

/-- The answer to a signed-in page. -/
def sessionReply : Reply Unit where
  response := { status := 200, json := some (.obj [("user", .str "user_42")]) }
  setCookie cookies := cookies

end WorkersAuth.Sample

namespace WorkersAuth.Client

open Atomic Sample

/-- Two calls that share a 401 both settle with no session. -/
theorem session_servedAlike_played
    : ∃ (events : List (ClientEvent Unit Unit)) (after : Scene Unit Unit) (progress : Progress Unit),
        Sequence anyServer.Step (Scene.fresh () ()) events after
          ∧ after.callers.map Caller.outcome = [some (.resolved none), some (.resolved none)]
          ∧ ServedAlike after.callers 0 progress := by
  let refused : Reply Unit := { response := { status := 401, json := none }, setCookie := id }
  have run : Sequence anyServer.Step (Scene.fresh () ())
      [.called .session, .called .session, .handled 0 refused (), .settled 0, .resumed 0, .resumed 1] _ :=
    .cons ⟨trivial, rfl⟩ (.cons ⟨trivial, rfl⟩ (.cons ⟨fun _ _ => trivial, rfl⟩
      (.cons ⟨trivial, rfl⟩ (.cons ⟨trivial, rfl⟩ (.cons ⟨trivial, rfl⟩ .nil)))))
  have unneeded : BodyUnneeded (Progress.answered refused) := .inl rfl
  exact ⟨_, _, _, run, rfl, (session_servedAlike run rfl rfl).1 (.inr unneeded)⟩

/-- Of two calls that share an answer with a session, the second finds the
body used and is rejected with the platform's error.
-/
theorem session_shared_bodyUsed
    : ¬ ∀ (events : List (ClientEvent Unit Unit)) (after : Scene Unit Unit) (id : Nat)
        (fetch : Fetch Unit),
        Sequence anyServer.Step (Scene.fresh () ()) events after → after.fetches[id]? = some fetch →
        fetch.call = .session → ServedAlike after.callers id fetch.progress := by
  intro claimed
  have run : Sequence anyServer.Step (Scene.fresh () ())
      [.called .session, .called .session, .handled 0 sessionReply (), .settled 0, .resumed 0, .resumed 1] _ :=
    .cons ⟨trivial, rfl⟩ (.cons ⟨trivial, rfl⟩ (.cons ⟨fun _ _ => trivial, rfl⟩
      (.cons ⟨trivial, rfl⟩ (.cons ⟨trivial, rfl⟩ (.cons ⟨trivial, rfl⟩ .nil)))))
  have second := claimed _ _ 0 _ run rfl rfl 1 _ ⟨rfl, rfl⟩ (by simp)
  cases second

end WorkersAuth.Client

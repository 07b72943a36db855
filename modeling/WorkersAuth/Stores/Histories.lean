import WorkersAuth.Stores.Deployment
import WorkersAuth.Stores.Serving

/-! Histories of the session stores that can be computed.
Each call is given its time and what else the outside puts into it.
-/

namespace WorkersAuth.Stores

open Atomic

instance (time : Millis) (consistency : Consistency) : DecidableRel (stopped time consistency).clock :=
  fun _ read => inferInstanceAs (Decidable (read = time))

/-- A task served alone, computed. -/
def computeServed {α : Type} (platform : Platform) (consistency : Consistency) (outside : Outside)
    (task : Task α) (before : Storage)
    : Option (α × Storage) :=
  if before.now ≤ outside.now then
    task.compute (compute platform (stopped outside.now consistency).clock consistency) outside before
  else none

/-- A computed service is one. -/
theorem serves_of_computed {α : Type} {platform : Platform} {consistency : Consistency}
    {outside : Outside} {task : Task α} {before after : Storage} {answer : α}
    (computed : computeServed platform consistency outside task before = some (answer, after))
    : Serves platform consistency outside.now task before answer after := by
  simp only [computeServed, Option.ite_none_right_eq_some] at computed
  obtain ⟨forward, computed⟩ := computed
  exact ⟨forward, Program.compute_sound (compute_sound platform _ _) computed⟩

/-- A call of a store over strongly consistent KV, computed; nothing when it fails the check. -/
def serve (platform : Platform) (store : SessionStore) (check : Storage → Event → Bool)
    (input : Outside × Request) (before : Storage)
    : Option (Event × Storage) :=
  match computeServed platform .strong input.1 (store.call platform input.2) before with
  | some (answer, after) =>
      if check before ⟨input.1.now, input.2, answer⟩ then
        some (⟨input.1.now, input.2, answer⟩, after)
      else none
  | none => none

/-- A computed call is a call that passes the check. -/
theorem step_of_serve {platform : Platform} {store : SessionStore} {check : Storage → Event → Bool}
    {input : Outside × Request} {before after : Storage} {event : Event}
    (served : serve platform store check input before = some (event, after))
    : store.Step platform .strong before event after ∧ check before event = true := by
  simp only [serve] at served
  split at served
  · next answer after computed =>
      obtain ⟨passes, same⟩ := Option.ite_none_right_eq_some.mp served
      cases same
      exact ⟨serves_of_computed computed, passes⟩
  · contradiction

-----------------------------------------------------------------------------------------
-- Handlers
-----------------------------------------------------------------------------------------

/-- A handler's reply, when the answer has one. -/
def replyOf : (call : SessionCall) → Answer → Option call.Reply
  | .get _, .found session => some session
  | .create _, .created (.ok session) => some session
  | .revoke _, .done => some ()
  | .revokeAllForUser _, .done => some ()
  | .touch .., .done => some ()
  | _, _ => none

theorem answerOf_of_reply {call : SessionCall} {answer : Answer} {reply : call.Reply}
    (replies : replyOf call answer = some reply)
    : answerOf call reply = answer := by
  unfold replyOf at replies
  split at replies <;> first | contradiction | (cases replies; rfl)

/-- A handler's calls, computed over strongly consistent KV. -/
def computeHandled (platform : Platform) (store : SessionStore) (isolate : Nat) (outside : Outside)
    : (op : WorkersAuth.Op) → World Storage → Option (op.Reply × World Storage)
  | .store call, world => (call.run world.db).map (fun (reply, db) => (reply, { world with db }))
  | .session call, world =>
      (computeServed platform .strong outside (store.call platform (callOf isolate call))
        world.sessions).bind
        (fun (answer, sessions) =>
          (replyOf call answer).map (fun reply => (reply, { world with sessions })))
  | .host call, world =>
      (call.answer platform WorkersAuth.Sample.users { now := outside.now }).map
        (fun reply => (reply, world))

/-- A handler's computed calls are calls at the outside's time, by cases on the call. -/
theorem computeHandled_sound {platform : Platform} {store : SessionStore} {isolate : Nat}
    {outside : Outside} {op : WorkersAuth.Op} {before after : World Storage} {reply : op.Reply}
    (computed : computeHandled platform store isolate outside op before = some (reply, after))
    : store.handles platform .strong isolate outside.now op before reply after := by
  cases op with
  | store call =>
      obtain ⟨⟨answer, db⟩, ran, same⟩ := Option.map_eq_some_iff.mp computed
      cases same
      exact ⟨⟨ran, rfl⟩, trivial⟩
  | session call =>
      obtain ⟨⟨answer, sessions⟩, served, replies⟩ := Option.bind_eq_some_iff.mp computed
      obtain ⟨answered, known, same⟩ := Option.map_eq_some_iff.mp replies
      cases same
      obtain rfl := answerOf_of_reply known
      exact ⟨⟨serves_of_computed served, rfl⟩, trivial⟩
  | host call =>
      obtain ⟨answer, answered, same⟩ := Option.map_eq_some_iff.mp computed
      cases same
      refine ⟨⟨HostCall.answers_of_answer platform _ answered, rfl⟩, ?_⟩
      cases call with
      | clock => exact (Option.some.inj answered).symm
      | _ => trivial

/-- A handler served alone, computed. -/
def computeHandler {α : Type} (platform : Platform) (store : SessionStore) (isolate : Nat)
    (outside : Outside) (handler : Handler α) (before : World Storage)
    : Option (α × World Storage) :=
  handler.compute (fun _ : Unit => computeHandled platform store isolate outside) () before

/-- A computed handler has been served. -/
theorem evaluates_of_computed {α : Type} {platform : Platform} {store : SessionStore} {isolate : Nat}
    {outside : Outside} {handler : Handler α} {before after : World Storage} {answer : α}
    (computed : computeHandler platform store isolate outside handler before = some (answer, after))
    : Program.Evaluates (store.handles platform .strong isolate outside.now) handler before answer after := by
  have sound : Runner.Sound (fun _ : Unit => computeHandled platform store isolate outside)
      (store.handles platform .strong isolate outside.now) :=
    fun _ _ _ _ _ => computeHandled_sound
  exact Program.compute_sound sound computed

namespace Sample

/-- The event created the sample's session. -/
def createdEvent (event : Event) : Bool :=
  match event with
  | ⟨_, .create _, .created (.ok session)⟩ => session.sid = sid
  | _ => false

theorem createdEvent_created {event : Event} (check : createdEvent event = true)
    : ∃ input session, event.Created input session ∧ session.sid = sid := by
  unfold createdEvent at check
  split at check
  · exact ⟨_, _, ⟨rfl, rfl⟩, of_decide_eq_true check⟩
  · contradiction

/-- The event is a `get` of the sample's session with such an answer. -/
def gotEvent (check : Option Session → Bool) (event : Event) : Bool :=
  match event with
  | ⟨_, .get other, .found session⟩ => other = sid && check session
  | _ => false

theorem gotEvent_got {check : Option Session → Bool} {event : Event} (got : gotEvent check event = true)
    : ∃ session, event.request = .get sid ∧ event.answer = .found session ∧ check session = true := by
  unfold gotEvent at got
  split at got
  · obtain ⟨same, passes⟩ := (Bool.and_eq_true ..).mp got
    obtain rfl := of_decide_eq_true same
    exact ⟨_, rfl, rfl, passes⟩
  · contradiction

/-- Two computed histories, one after the other, as the checks find them. -/
theorem exists_histories (store : SessionStore) (start : Storage) (check : Storage → Event → Bool)
    (first second : List (Outside × Request))
    (shows : (earlier later : List Event) → (storage finish : Storage) → Bool)
    (passes : (Sequence.play (serve platform store check) start first).any (fun early =>
      (Sequence.play (serve platform store check) early.2 second).any (fun late =>
        shows early.1 late.1 early.2 late.2)) = true)
    : ∃ earlier later storage finish,
        Sequence (fun before event after =>
          store.Step platform .strong before event after ∧ check before event = true)
          start earlier storage
        ∧ Sequence (fun before event after =>
          store.Step platform .strong before event after ∧ check before event = true)
          storage later finish
        ∧ shows earlier later storage finish = true := by
  obtain ⟨⟨earlier, storage⟩, started, passes⟩ := (Option.any_eq_true ..).mp passes
  obtain ⟨⟨later, finish⟩, ended, shown⟩ := (Option.any_eq_true ..).mp passes
  exact ⟨earlier, later, storage, finish, Sequence.of_play (fun _ _ _ _ => step_of_serve) started,
    Sequence.of_play (fun _ _ _ _ => step_of_serve) ended, shown⟩

end Sample

end WorkersAuth.Stores

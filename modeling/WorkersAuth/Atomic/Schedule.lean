import WorkersAuth.Atomic.Pool
import WorkersAuth.Atomic.Sequence

/-! Runs that are computed.
A schedule lists the arrivals and the calls of a run in their order, each call with what
the outside puts into it. Playing a schedule computes the state it leads to, so that a
state can be shown reachable by evaluating a schedule.
-/

namespace Atomic

variable {Op : Type} {Ret : Op → Type} {World Request Input α : Type}

/-- A way to compute calls: the reply and the world after, given an input from outside, or
nothing when the call cannot be made so.
-/
abbrev Runner (Op : Type) (Ret : Op → Type) (World Input : Type) :=
  Input → (op : Op) → World → Option (Ret op × World)

/-- Whatever the runner computes, the semantics allows. -/
def Runner.Sound (runner : Runner Op Ret World Input) (exec : Semantics Op Ret World) : Prop :=
  ∀ input op before reply after,
    runner input op before = some (reply, after) → exec op before reply after

/-- One step of a schedule: a request arrives, or the thread at a position makes its call. -/
inductive Move (Request Input : Type) where
  | arrive (request : Request)
  | perform (index : Nat) (input : Input)

/-- One thread's next calls, all with one input. -/
def Move.times (count index : Nat) (input : Input) : List (Move Request Input) :=
  List.replicate count (.perform index input)

/-- The request that arrives. -/
def Move.arrival : Move Request Input → Option Request
  | .arrive request => some request
  | .perform _ _ => none

namespace Service

variable (service : Service Op Ret World Request α) (runner : Runner Op Ret World Input)
  (check : Pool Op Ret World Request α → Entry Op Ret → Bool)

/-- The state after one move; nothing when the move is impossible or fails the check. -/
def move (pool : Pool Op Ret World Request α)
    : Move Request Input → Option (Pool Op Ret World Request α)
  | .arrive request => some (service.arrive pool request)
  | .perform index input =>
      match pool.threads[index]? with
      | some ⟨request, .call op next⟩ =>
          match runner input op pool.world with
          | some (reply, world) =>
              if check pool ⟨index, op, reply⟩ then
                some {
                  world
                  threads := pool.threads.set index ⟨request, next reply⟩
                  log := pool.log ++ [⟨index, op, reply⟩]
                }
              else none
          | none => none
      | _ => none

/-- The state a whole schedule leads to. -/
def play (pool : Pool Op Ret World Request α)
    : List (Move Request Input) → Option (Pool Op Ret World Request α)
  | [] => some pool
  | next :: rest =>
      match service.move runner check pool next with
      | some after => play after rest
      | none => none

variable {service runner check} {pool later : Pool Op Ret World Request α}
  {condition : Pool Op Ret World Request α → Entry Op Ret → Prop}

/-- An arrival, where the program of the request is known. -/
theorem arrive_eq {request : Request} {rest : Program Op Ret α}
    (program : service.program request = rest)
    : service.arrive pool request
      = { pool with threads := pool.threads ++ [⟨request, rest⟩] } := by
  rw [arrive, program]

/-- A schedule with such an arrival, by induction on the moves before it. -/
theorem play_arrival {request : Request} {rest : Program Op Ret α}
    (program : service.program request = rest) (before after : List (Move Request Input))
    : service.play runner check pool (before ++ .arrive request :: after)
      = (service.play runner check pool before).bind (fun middle =>
        service.play runner check { middle with threads := middle.threads ++ [⟨request, rest⟩] }
          after) := by
  induction before generalizing pool with
  | nil =>
      change service.play runner check (service.arrive pool request) after = _
      rw [arrive_eq program]
      rfl
  | cons next moves ih =>
      simp only [List.cons_append, play]
      cases service.move runner check pool next with
      | none => rfl
      | some reached => exact ih

/-- A move is a step that meets the condition the check decides, by cases on the move. -/
theorem move_stepWhen (sound : runner.Sound service.exec)
    (checks : ∀ pool entry, check pool entry = true → condition pool entry)
    {move : Move Request Input} (moves : service.move runner check pool move = some later)
    : service.StepWhen condition pool later := by
  cases move with
  | arrive request =>
      cases moves
      exact .arrive request
  | perform index input =>
      simp only [Service.move] at moves
      split at moves
      · next request op next running =>
          split at moves
          · next reply world computed =>
              split at moves
              · next passed =>
                  cases moves
                  exact .perform (checks _ _ passed)
                    (.intro running (sound _ _ _ _ _ computed))
              · contradiction
          · contradiction
      · contradiction

/-- The move of a thread is a call of that thread. -/
theorem performs_of_move (sound : runner.Sound service.exec) {index : Nat} {input : Input}
    (moves : service.move runner check pool (.perform index input) = some later)
    : ∃ entry : Entry Op Ret, entry.thread = index ∧ service.Performs pool entry later := by
  simp only [Service.move] at moves
  split at moves
  · next request op next running =>
      split at moves
      · next reply world computed =>
          split at moves
          · cases moves
            exact ⟨_, rfl, .intro running (sound _ _ _ _ _ computed)⟩
          · contradiction
      · contradiction
  · contradiction

/-- A played schedule is a run that meets the condition the check decides, by induction on
the schedule.
-/
theorem play_runWhen (sound : runner.Sound service.exec)
    (checks : ∀ pool entry, check pool entry = true → condition pool entry)
    {schedule : List (Move Request Input)}
    (played : service.play runner check pool schedule = some later)
    : service.RunWhen condition pool later := by
  induction schedule generalizing pool with
  | nil =>
      cases played
      exact .refl
  | cons next rest ih =>
      simp only [play] at played
      split at played
      · next after moves =>
          exact Relation.ReflTransGen.head (move_stepWhen sound checks moves) (ih played)
      · contradiction

/-- The requests of a played schedule are those that arrive in it, by induction on the schedule. -/
theorem requests_play (sound : runner.Sound service.exec) {schedule : List (Move Request Input)}
    (played : service.play runner check pool schedule = some later)
    : later.threads.map Thread.request
      = pool.threads.map Thread.request ++ schedule.filterMap Move.arrival := by
  induction schedule generalizing pool with
  | nil =>
      cases played
      simp
  | cons next rest ih =>
      simp only [play] at played
      split at played
      · next after moves =>
          rw [ih played]
          cases next with
          | arrive request =>
              cases moves
              simp [Service.arrive, Move.arrival]
          | perform index input =>
              obtain ⟨entry, _, performs⟩ := performs_of_move sound moves
              rw [performs.requests_eq, List.filterMap_cons_none rfl]
      · contradiction

/-- A state computed from the start without any check is reachable. -/
theorem reachable_of_play (sound : runner.Sound service.exec) {world : World}
    {schedule : List (Move Request Input)}
    (played : service.play runner (fun _ _ => true) (.start world) schedule = some later)
    : service.Reachable world later := by
  have run : service.RunWhen (fun _ _ => True) (.start world) later :=
    play_runWhen sound (fun _ _ _ => trivial) played
  exact run.run

end Service

-----------------------------------------------------------------------------------------
-- Programs and histories that run alone
-----------------------------------------------------------------------------------------

/-- Computing a program that runs alone, each of its calls with the same input. -/
def Program.compute (runner : Runner Op Ret World Input) (input : Input)
    : Program Op Ret α → World → Option (α × World)
  | .pure answer, world => some (answer, world)
  | .call op next, world =>
      match runner input op world with
      | some (reply, after) => (next reply).compute runner input after
      | none => none

/-- A computed program has been evaluated, by induction on it. -/
theorem Program.compute_sound {runner : Runner Op Ret World Input} {exec : Semantics Op Ret World}
    (sound : runner.Sound exec) {input : Input} {program : Program Op Ret α} {before after : World}
    {answer : α} (computed : program.compute runner input before = some (answer, after))
    : Evaluates exec program before answer after := by
  induction program generalizing before with
  | pure result =>
      cases computed
      exact evaluates_pure.mpr ⟨rfl, rfl⟩
  | call op next ih =>
      simp only [compute] at computed
      split at computed
      · next reply middle made =>
          exact evaluates_call.mpr ⟨reply, middle, sound _ _ _ _ _ made, ih reply computed⟩
      · contradiction

/-- Computing a history, by a way to compute each of its events. -/
def Sequence.play {Event : Type} (serve : Input → World → Option (Event × World))
    : World → List Input → Option (List Event × World)
  | world, [] => some ([], world)
  | world, input :: rest =>
      match serve input world with
      | some (event, after) => (play serve after rest).map (fun played => (event :: played.1, played.2))
      | none => none

/-- A computed history is one, by induction on its events. -/
theorem Sequence.of_play {Event : Type} {step : World → Event → World → Prop}
    {serve : Input → World → Option (Event × World)}
    (sound : ∀ input before event after, serve input before = some (event, after) → step before event after)
    {inputs : List Input} {before after : World} {events : List Event}
    (played : play serve before inputs = some (events, after))
    : Sequence step before events after := by
  induction inputs generalizing before events with
  | nil =>
      cases played
      exact .nil
  | cons input rest ih =>
      simp only [play] at played
      split at played
      · next event middle served =>
          obtain ⟨⟨more, finish⟩, later, same⟩ := Option.map_eq_some_iff.mp played
          cases same
          exact .cons (sound _ _ _ _ served) (ih later)
      · contradiction

end Atomic

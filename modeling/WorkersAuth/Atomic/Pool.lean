import WorkersAuth.Atomic.Program

/-! Any number of programs over one shared world.
Requests arrive at any time; each runs its own program, and the calls of all of them
interleave in any order, one call being one atomic step. The pool keeps the log of the
calls made so far, so facts about a run are facts about the log of its last state.
-/

namespace Atomic

variable (Op : Type) (Ret : Op → Type)

/-- One executed call: the operation and the reply it got. -/
structure Call where
  op : Op
  ret : Ret op

/-- A call in the log, with the position of the thread that made it. -/
structure Entry where
  thread : Nat
  call : Call Op Ret

/-- A request and what is left of its program. -/
structure Thread (Request α : Type) where
  request : Request
  rest : Program Op Ret α

/-- A shared world, the requests that have arrived so far and the calls they have made. -/
structure Pool (World Request α : Type) where
  world : World
  threads : List (Thread Op Ret Request α)
  log : List (Entry Op Ret)

/-- A service: the program that serves each request, and what its calls do. -/
structure Service (World Request α : Type) where
  program : Request → Program Op Ret α
  exec : Semantics Op Ret World

variable {Op : Type} {Ret : Op → Type} {World Request α : Type}

/-- The state before any request has arrived. -/
def Pool.start (world : World) : Pool Op Ret World Request α := ⟨world, [], []⟩

/-- The calls one thread has made so far, oldest first. -/
def Pool.history (pool : Pool Op Ret World Request α) (index : Nat) : List (Call Op Ret) :=
  pool.log.filterMap (fun entry => if entry.thread = index then some entry.call else none)

/-- The request a thread serves. -/
def Pool.requestOf (pool : Pool Op Ret World Request α) (index : Nat) : Option Request :=
  pool.threads[index]?.map Thread.request

namespace Service

variable (service : Service Op Ret World Request α)

/-- A request arrives: its program is started and has made no call yet. -/
def arrive (pool : Pool Op Ret World Request α) (request : Request)
    : Pool Op Ret World Request α :=
  { pool with threads := pool.threads ++ [⟨request, service.program request⟩] }

/-- One thread makes its next call, as one atomic step on the shared world. -/
inductive Performs (pool : Pool Op Ret World Request α)
    : Entry Op Ret → Pool Op Ret World Request α → Prop
  | intro {index request op next reply world}
    (running : pool.threads[index]? = some ⟨request, .call op next⟩)
    (executes : service.exec op pool.world reply world)
    : Performs pool ⟨index, op, reply⟩
        {
          world
          threads := pool.threads.set index ⟨request, next reply⟩
          log := pool.log ++ [⟨index, op, reply⟩]
        }

/-- A step of the service: an arrival, or one call of one thread. -/
inductive Step (pool : Pool Op Ret World Request α) : Pool Op Ret World Request α → Prop
  | arrive (request : Request) : Step pool (service.arrive pool request)
  | perform {entry after} (performs : service.Performs pool entry after) : Step pool after

/-- Any number of steps. -/
abbrev Run : Pool Op Ret World Request α → Pool Op Ret World Request α → Prop :=
  Relation.ReflTransGen service.Step

/-- The states some run from a world without requests can reach. -/
def Reachable (world : World) (pool : Pool Op Ret World Request α) : Prop :=
  service.Run (.start world) pool

/-- A step whose call, if it is one, meets a condition on the state it is made in. -/
inductive StepWhen (condition : Pool Op Ret World Request α → Entry Op Ret → Prop)
    (pool : Pool Op Ret World Request α)
    : Pool Op Ret World Request α → Prop
  | arrive (request : Request) : StepWhen condition pool (service.arrive pool request)
  | perform {entry after} (meets : condition pool entry)
    (performs : service.Performs pool entry after)
    : StepWhen condition pool after

/-- Any number of steps that meet the condition. -/
abbrev RunWhen (condition : Pool Op Ret World Request α → Entry Op Ret → Prop)
    : Pool Op Ret World Request α → Pool Op Ret World Request α → Prop :=
  Relation.ReflTransGen (service.StepWhen condition)

variable {service} {world : World} {pool next later : Pool Op Ret World Request α}

/-- A run that meets a condition is a run. -/
theorem RunWhen.run {condition : Pool Op Ret World Request α → Entry Op Ret → Prop}
    (run : service.RunWhen condition pool later)
    : service.Run pool later := by
  refine Relation.ReflTransGen.mono ?_ _ _ run
  rintro _ _ (request | ⟨_, performs⟩)
  · exact .arrive request
  · exact .perform performs

theorem Reachable.start : service.Reachable world (.start world) := .refl

theorem Reachable.step (reach : service.Reachable world pool) (step : service.Step pool next)
    : service.Reachable world next := .tail reach step

theorem Reachable.run (reach : service.Reachable world pool) (run : service.Run pool later)
    : service.Reachable world later := reach.trans run

-----------------------------------------------------------------------------------------
-- Histories and the log
-----------------------------------------------------------------------------------------

@[simp] theorem history_start (index : Nat)
    : (Pool.start world : Pool Op Ret World Request α).history index = [] := rfl

@[simp] theorem arrive_world (request : Request)
    : (service.arrive pool request).world = pool.world := rfl

@[simp] theorem arrive_log (request : Request)
    : (service.arrive pool request).log = pool.log := rfl

@[simp] theorem history_arrive (request : Request) (index : Nat)
    : (service.arrive pool request).history index = pool.history index := rfl

/-- A call extends the history of its own thread and of no other. -/
theorem Performs.history_eq {entry : Entry Op Ret} (performs : service.Performs pool entry next)
    (index : Nat)
    : next.history index
      = pool.history index ++ (if entry.thread = index then [entry.call] else []) := by
  cases performs with
  | intro running executes =>
      simp only [Pool.history, List.filterMap_append, List.filterMap_cons, List.filterMap_nil]
      split <;> simp_all

/-- The log of a call's successor ends with that call. -/
theorem Performs.log_eq {entry : Entry Op Ret} (performs : service.Performs pool entry next)
    : next.log = pool.log ++ [entry] := by
  cases performs; rfl

/-- The effect of a call on the world is the one the semantics allows. -/
theorem Performs.executes {entry : Entry Op Ret} (performs : service.Performs pool entry next)
    : service.exec entry.call.op pool.world entry.call.ret next.world := by
  cases performs with
  | intro _ executes => exact executes

/-- A call keeps the number of threads and the request of each. -/
theorem Performs.requests_eq {entry : Entry Op Ret} (performs : service.Performs pool entry next)
    : next.threads.map Thread.request = pool.threads.map Thread.request := by
  cases performs with
  | @intro index request op rest reply world running executes =>
      apply List.ext_getElem?
      intro position
      simp only [List.getElem?_map, List.getElem?_set]
      split
      · next same =>
          subst same
          obtain ⟨inside, found⟩ := List.getElem?_eq_some_iff.mp running
          simp [inside, found]
      · rfl

/-- Every logged call was made by a thread that has arrived, by induction on the run. -/
theorem Reachable.thread_lt (reach : service.Reachable world pool) {entry : Entry Op Ret}
    (logged : entry ∈ pool.log)
    : entry.thread < pool.threads.length := by
  induction reach with
  | refl => simp [Pool.start] at logged
  | @tail before after _ step ih =>
      cases step with
      | arrive request =>
          have known := ih logged
          simp only [Service.arrive, List.length_append, List.length_singleton]
          omega
      | perform performs =>
          have same : after.threads.length = before.threads.length := by
            simpa using congrArg List.length performs.requests_eq
          rw [performs.log_eq, List.mem_append, List.mem_singleton] at logged
          rcases logged with old | rfl
          · exact same ▸ ih old
          · cases performs with
            | intro running executes =>
                rw [same]
                exact (List.getElem?_eq_some_iff.mp running).1

/-- A thread that has not arrived yet has no history. -/
theorem Reachable.history_nil (reach : service.Reachable world pool) {index : Nat}
    (outside : pool.threads.length ≤ index)
    : pool.history index = [] := by
  simp only [Pool.history, List.filterMap_eq_nil_iff]
  intro entry logged
  have known := reach.thread_lt logged
  rw [if_neg (by omega)]

/-- The log only grows along a run, by induction on the run. -/
theorem log_grows (run : service.Run pool later) : pool.log <+: later.log := by
  induction run with
  | refl => exact List.prefix_rfl
  | tail _ step ih =>
      cases step with
      | arrive request => exact ih
      | perform performs => exact ih.trans ⟨_, performs.log_eq.symm⟩

/-- A thread serves one request for good, by induction on the run. -/
theorem requestOf_run (run : service.Run pool later) {index : Nat} {request : Request}
    (serves : pool.requestOf index = some request)
    : later.requestOf index = some request := by
  induction run with
  | refl => exact serves
  | @tail before after _ step ih =>
      simp only [Pool.requestOf, ← List.getElem?_map] at ih ⊢
      cases step with
      | arrive request =>
          simp only [Service.arrive, List.map_append]
          rw [List.getElem?_append_left (List.getElem?_eq_some_iff.mp ih).1, ih]
      | perform performs => rw [performs.requests_eq, ih]

/-- Every logged call happened at some moment of the run: a reachable state whose log is
what came before it, and the step that made it. By induction on the run.
-/
theorem Reachable.at_entry (reach : service.Reachable world pool)
    {before after : List (Entry Op Ret)} {entry : Entry Op Ret}
    (split : pool.log = before ++ entry :: after)
    : ∃ earlier following, service.Reachable world earlier ∧ earlier.log = before
        ∧ service.Performs earlier entry following ∧ service.Run following pool := by
  induction reach generalizing after with
  | refl => simp [Pool.start] at split
  | @tail middle last toMiddle step ih =>
      cases step with
      | arrive request =>
          obtain ⟨earlier, following, reachable, log, performs, run⟩ := ih split
          exact ⟨earlier, following, reachable, log, performs, run.tail (.arrive request)⟩
      | @perform newest _ performs =>
          have logs := performs.log_eq.symm.trans split
          rcases List.eq_nil_or_concat after with rfl | ⟨shorter, final, rfl⟩
          · obtain ⟨log, same⟩ := List.append_inj' logs rfl
            cases List.singleton_inj.mp same
            exact ⟨middle, last, toMiddle, log, performs, .refl⟩
          · rw [List.concat_eq_append, ← List.cons_append, ← List.append_assoc] at logs
            obtain ⟨earlier, following, reachable, log, made, run⟩ :=
              ih (List.append_inj' logs rfl).1
            exact ⟨earlier, following, reachable, log, made, run.tail (.perform performs)⟩

/-- A call in a thread's history is logged under that thread. -/
theorem mem_history {index : Nat} {call : Call Op Ret}
    : call ∈ pool.history index ↔ ⟨index, call⟩ ∈ pool.log := by
  simp only [Pool.history, List.mem_filterMap]
  constructor
  · rintro ⟨entry, logged, selected⟩
    split at selected
    · next same =>
        cases selected
        subst same
        exact logged
    · contradiction
  · intro logged
    exact ⟨_, logged, by simp⟩

end Service

end Atomic

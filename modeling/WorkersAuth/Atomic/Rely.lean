import WorkersAuth.Atomic.Trace

/-! Programs that rely on each other.
The threads of a pool keep an invariant and move the world on in some direction only. A
program honours that when it does its part in every world that the others may leave between
two of its calls, so what it has once seen to be so for good it knows at its end.
-/

namespace Atomic

variable {Op : Type} {Ret : Op → Type} {World Request α β : Type}

/-- What threads promise each other as long as every call meets a condition on the world it is
made in: an invariant, and the direction in which the world moves.
-/
structure Contract (Op : Type) (Ret : Op → Type) (World : Type) where
  meets : World → Call Op Ret → Prop
  keep : World → Prop
  grows : World → World → Prop
  refl : ∀ world, grows world world
  trans : ∀ first second third, grows first second → grows second third → grows first third

namespace Program

/-- In this world or any the others leave, the next call keeps the contract and the rest goes on
so; an answer satisfies `post`, whenever it is looked at. `post` sees the calls made as well.
-/
def Honours (exec : Semantics Op Ret World) (contract : Contract Op Ret World)
    (post : List (Call Op Ret) → α → World → Prop)
    : List (Call Op Ret) → Program Op Ret α → World → Prop
  | history, .pure answer, world =>
      ∀ later, contract.grows world later → contract.keep later → post history answer later
  | history, .call op next, world =>
      ∀ before reply after, contract.grows world before → contract.keep before
        → contract.meets before ⟨op, reply⟩ → exec op before reply after
        → contract.keep after ∧ contract.grows before after
          ∧ (next reply).Honours exec contract post (history ++ [⟨op, reply⟩]) after

variable {exec : Semantics Op Ret World} {contract : Contract Op Ret World}
  {post : List (Call Op Ret) → α → World → Prop} {history : List (Call Op Ret)}
  {program : Program Op Ret α} {world : World}

/-- What is honoured from here on is honoured from later on. -/
theorem Honours.later {grown : World} (honours : program.Honours exec contract post history world)
    (moves : contract.grows world grown)
    : program.Honours exec contract post history grown := by
  cases program with
  | pure answer => exact fun last onward => honours last (contract.trans _ _ _ moves onward)
  | call op next =>
      exact fun before reply after onward =>
        honours before reply after (contract.trans _ _ _ moves onward)

/-- Only the worlds that keep the contract matter. -/
theorem Honours.of_later
    (honours : ∀ later, contract.grows world later → contract.keep later →
      program.Honours exec contract post history later)
    : program.Honours exec contract post history world := by
  cases program with
  | pure answer => exact fun later grown kept => honours later grown kept later (contract.refl _) kept
  | call op next =>
      exact fun before reply after grown kept =>
        honours before grown kept before reply after (contract.refl _) kept

/-- An answer, as the `do` notation writes it. -/
theorem Honours.answer {answer : α}
    (holds : ∀ later, contract.grows world later → contract.keep later → post history answer later)
    : (Pure.pure answer : Program Op Ret α).Honours exec contract post history world := holds

/-- A call followed by the rest, as the `do` notation writes it. -/
theorem Honours.perform {op : Op} {rest : Ret op → Program Op Ret α}
    (next : ∀ before reply after, contract.grows world before → contract.keep before
      → contract.meets before ⟨op, reply⟩ → exec op before reply after
      → contract.keep after ∧ contract.grows before after
        ∧ (rest reply).Honours exec contract post (history ++ [⟨op, reply⟩]) after)
    : ((Program.perform op : Program Op Ret (Ret op)) >>= rest).Honours
        exec contract post history world := next

/-- A call and nothing after it. -/
theorem Honours.perform_last {op : Op} {post : List (Call Op Ret) → Ret op → World → Prop}
    (next : ∀ before reply after, contract.grows world before → contract.keep before
      → contract.meets before ⟨op, reply⟩ → exec op before reply after
      → contract.keep after ∧ contract.grows before after
        ∧ ∀ later, contract.grows after later → contract.keep later
          → post (history ++ [⟨op, reply⟩]) reply later)
    : (Program.perform op : Program Op Ret (Ret op)).Honours exec contract post history world := next

/-- A composition, its second part from whatever the first one leads to; by induction on the
first part.
-/
theorem Honours.bind {rest : α → Program Op Ret β} {last : List (Call Op Ret) → β → World → Prop}
    (first : program.Honours exec contract post history world)
    (second : ∀ history answer world, contract.keep world → post history answer world →
      (rest answer).Honours exec contract last history world)
    : (program >>= rest).Honours exec contract last history world := by
  induction program generalizing history world with
  | pure answer =>
      exact .of_later (fun later grown kept => second history answer later kept (first later grown kept))
  | call op next ih =>
      intro before reply after grown kept meets executes
      obtain ⟨keeps, moves, continues⟩ := first before reply after grown kept meets executes
      exact ⟨keeps, moves, ih reply continues⟩

/-- A weaker postcondition is as good, by induction on the program. -/
theorem Honours.mono {weaker : List (Call Op Ret) → α → World → Prop}
    (honours : program.Honours exec contract post history world)
    (implies : ∀ history answer world, post history answer world → weaker history answer world)
    : program.Honours exec contract weaker history world := by
  induction program generalizing history world with
  | pure answer => exact fun later grown kept => implies _ _ _ (honours later grown kept)
  | call op next ih =>
      intro before reply after grown kept meets executes
      obtain ⟨keeps, moves, continues⟩ := honours before reply after grown kept meets executes
      exact ⟨keeps, moves, ih reply continues⟩

/-- An answer is given in a world that has grown out of the first one, by induction on the
program.
-/
theorem Honours.grown {first : World} (honours : program.Honours exec contract post history world)
    (grown : contract.grows first world)
    : program.Honours exec contract
        (fun history answer later => contract.grows first later ∧ post history answer later)
        history world := by
  induction program generalizing history world with
  | pure answer =>
      exact fun later onward kept =>
        ⟨contract.trans _ _ _ grown onward, honours later onward kept⟩
  | call op next ih =>
      intro before reply after onward kept meets executes
      obtain ⟨keeps, moves, continues⟩ := honours before reply after onward kept meets executes
      refine ⟨keeps, moves, ih reply continues ?_⟩
      exact contract.trans _ _ _ (contract.trans _ _ _ grown onward) moves

end Program

namespace Service

variable {service : Service Op Ret World Request α} {world : World}
  {pool later : Pool Op Ret World Request α} {contract : Contract Op Ret World}
  {post : Nat → List (Call Op Ret) → α → World → Prop} {index : Nat} {request : Request}
  {answer : α}

variable (service contract) in
/-- Runs whose calls all meet the condition of the contract. -/
abbrev RunUnder : Pool Op Ret World Request α → Pool Op Ret World Request α → Prop :=
  service.RunWhen (fun pool entry => contract.meets pool.world entry.call)

/-- Every thread honours the contract, the one at `index` with `post index`. -/
def Honouring (service : Service Op Ret World Request α) (contract : Contract Op Ret World)
    (post : Nat → List (Call Op Ret) → α → World → Prop) (pool : Pool Op Ret World Request α)
    : Prop :=
  contract.keep pool.world
  ∧ ∀ index (thread : Thread Op Ret Request α), pool.threads[index]? = some thread →
      thread.rest.Honours service.exec contract (post index) (pool.history index) pool.world

/-- Nothing has arrived that could break the contract. -/
theorem honouring_start (kept : contract.keep world)
    : service.Honouring contract post (.start world) :=
  ⟨kept, fun index thread found => by simp [Pool.start] at found⟩

/-- Threads only arrive, by induction on the run. -/
theorem threads_length_run (run : service.Run pool later)
    : pool.threads.length ≤ later.threads.length := by
  induction run with
  | refl => exact Nat.le_refl _
  | tail _ step ih =>
      cases step with
      | arrive request => exact Nat.le_trans ih (by simp [Service.arrive])
      | perform performs =>
          have same := congrArg List.length performs.requests_eq
          simp only [List.length_map] at same
          exact Nat.le_trans ih (Nat.le_of_eq same.symm)

/-- Threads that honour a contract go on to do so, with those that arrive; by induction on the
run.
-/
theorem RunWhen.honouring (run : service.RunUnder contract pool later)
    (reach : service.Reachable world pool) (honouring : service.Honouring contract post pool)
    (programs : ∀ index request world, later.requestOf index = some request →
      pool.threads.length ≤ index → contract.keep world →
      (service.program request).Honours service.exec contract (post index) [] world)
    : service.Honouring contract post later := by
  induction run with
  | refl => exact honouring
  | @tail middle last before step ih =>
      have stepped : service.Run middle last := by
        rcases step with request | ⟨_, performs⟩
        · exact .single (.arrive request)
        · exact .single (.perform performs)
      obtain ⟨kept, threads⟩ := ih (fun index request world arrived =>
        programs index request world (requestOf_run stepped arrived))
      cases step with
      | arrive request =>
          refine ⟨kept, fun index thread found => ?_⟩
          simp only [Service.arrive, List.getElem?_append] at found
          split at found
          · exact threads index thread found
          · next outside =>
              have inside := (List.getElem?_eq_some_iff.mp found).1
              rw [List.length_singleton] at inside
              obtain rfl : index = middle.threads.length := by omega
              obtain rfl : (⟨request, service.program request⟩ : Thread Op Ret Request α) = thread := by
                simpa using found
              rw [history_arrive, (reach.run (RunWhen.run before)).history_nil (Nat.le_refl _)]
              exact programs _ request _ (by simp [Pool.requestOf, Service.arrive])
                (threads_length_run (RunWhen.run before)) kept
      | @perform entry _ meets performs =>
          have histories := performs.history_eq
          cases performs with
          | @intro index request op rest reply world running executes =>
              obtain ⟨keeps, grows, continues⟩ :=
                threads index _ running _ reply world (contract.refl _) kept meets executes
              refine ⟨keeps, fun other thread found => ?_⟩
              rw [histories]
              simp only [List.getElem?_set] at found
              split at found
              · next same =>
                  subst same
                  obtain ⟨_, rfl⟩ : index < middle.threads.length
                      ∧ (⟨request, rest reply⟩ : Thread Op Ret Request α) = thread := by
                    simpa using found
                  rw [if_pos rfl]
                  exact continues
              · next other =>
                  rw [if_neg other, List.append_nil]
                  exact (threads _ thread found).later grows

/-- An answer of a thread that has honoured the contract satisfies its postcondition. -/
theorem Honouring.answered (honouring : service.Honouring contract post pool)
    (answered : pool.Answered index request answer)
    : post index (pool.history index) answer pool.world :=
  honouring.2 index _ answered pool.world (contract.refl _) honouring.1

end Service

end Atomic

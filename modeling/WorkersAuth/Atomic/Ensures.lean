import WorkersAuth.Atomic.Program

/-! Total correctness of a program that runs alone.
A program ensures a postcondition when it can answer and every answer meets it. The rules
follow the shape of programs, one for each way to write one.
-/

namespace Atomic

namespace Program

variable {Op : Type} {Ret : Op → Type} {World : Type} {α β : Type}

/-- Started here, the program can answer, and whatever it answers satisfies `post`. -/
def Ensures (exec : Semantics Op Ret World) (program : Program Op Ret α) (start : World)
    (post : α → World → Prop)
    : Prop :=
  (∃ answer finish, Evaluates exec program start answer finish)
  ∧ ∀ answer finish, Evaluates exec program start answer finish → post answer finish

variable {exec : Semantics Op Ret World} {start : World} {post : α → World → Prop}

/-- An answer ensures what holds of it. -/
theorem Ensures.answer {answer : α} (holds : post answer start)
    : (Pure.pure answer : Program Op Ret α).Ensures exec start post := by
  refine ⟨⟨answer, start, evaluates_pure.mpr ⟨rfl, rfl⟩⟩, ?_⟩
  intro result finish run
  obtain ⟨rfl, rfl⟩ := evaluates_pure.mp run
  exact holds

/-- A call that can be executed, then the rest after any execution of it. -/
theorem Ensures.call {op : Op} {rest : Ret op → Program Op Ret α}
    (possible : ∃ reply after, exec op start reply after)
    (later : ∀ reply after, exec op start reply after → (rest reply).Ensures exec after post)
    : (Program.call op rest).Ensures exec start post := by
  obtain ⟨reply, after, executes⟩ := possible
  obtain ⟨⟨answer, finish, continues⟩, _⟩ := later reply after executes
  refine ⟨⟨answer, finish, evaluates_call.mpr ⟨reply, after, executes, continues⟩⟩, ?_⟩
  intro result finish run
  obtain ⟨reply, after, executes, continues⟩ := evaluates_call.mp run
  exact (later reply after executes).2 result finish continues

/-- The same for a call written with its name. -/
theorem Ensures.perform {op : Op} {rest : Ret op → Program Op Ret α}
    (possible : ∃ reply after, exec op start reply after)
    (later : ∀ reply after, exec op start reply after → (rest reply).Ensures exec after post)
    : ((Program.perform op : Program Op Ret (Ret op)) >>= rest).Ensures exec start post :=
  .call possible later

/-- A composition, its second part from whatever the first one ensures. -/
theorem Ensures.bind {program : Program Op Ret α} {rest : α → Program Op Ret β}
    {middle : α → World → Prop} {post : β → World → Prop}
    (first : program.Ensures exec start middle)
    (second : ∀ answer world, middle answer world → (rest answer).Ensures exec world post)
    : (program >>= rest).Ensures exec start post := by
  obtain ⟨⟨answer, world, run⟩, every⟩ := first
  obtain ⟨⟨result, finish, continues⟩, _⟩ := second answer world (every answer world run)
  refine ⟨⟨result, finish, evaluates_bind.mpr ⟨answer, world, run, continues⟩⟩, ?_⟩
  intro result finish run
  obtain ⟨answer, world, run, continues⟩ := evaluates_bind.mp run
  exact (second answer world (every answer world run)).2 result finish continues

/-- A weaker postcondition is ensured as well. -/
theorem Ensures.mono {program : Program Op Ret α} {weaker : α → World → Prop}
    (ensures : program.Ensures exec start post)
    (implies : ∀ answer world, post answer world → weaker answer world)
    : program.Ensures exec start weaker :=
  ⟨ensures.1, fun answer finish run => implies answer finish (ensures.2 answer finish run)⟩

/-- Two postconditions that a program ensures hold together of some answer. -/
theorem Ensures.both {program : Program Op Ret α} {other : α → World → Prop}
    (first : program.Ensures exec start post) (second : program.Ensures exec start other)
    : ∃ answer world, post answer world ∧ other answer world := by
  obtain ⟨⟨answer, finish, run⟩, every⟩ := first
  exact ⟨answer, finish, every answer finish run, second.2 answer finish run⟩

/-- A program of calls that can always be executed and keep an invariant ensures it, and what
is known of every answer; by induction on the program.
-/
theorem Within.ensures {ops : Op → Prop} {program : Program Op Ret α} {good : α → Prop}
    (within : program.Within ops) (gives : program.Gives good) (keep : World → Prop)
    (possible : ∀ op before, ops op → keep before → ∃ reply after, exec op before reply after)
    (keeps : ∀ op before reply after, ops op → exec op before reply after → keep before → keep after)
    (initial : keep start)
    : program.Ensures exec start (fun answer world => good answer ∧ keep world) := by
  induction program generalizing start with
  | pure answer => exact .answer ⟨gives, initial⟩
  | call op next ih =>
      refine .call (possible op start within.1 initial) (fun reply after executes => ?_)
      exact ih reply (within.2 reply) (gives reply)
        (keeps op start reply after within.1 executes initial)

end Program

end Atomic

import Mathlib.Logic.Relation
import Mathlib.Data.List.Basic

/-! Sequential programs over atomic calls.
A program is the tree of its calls: each call names an operation, and the rest of the
program depends on the reply. What an operation does to the shared state is not part of
the program; it is given by a semantics, so one program runs over several worlds.
-/

namespace Atomic

/-- A program over the operations `Op`, where the reply to `op` has type `Ret op`. -/
inductive Program (Op : Type) (Ret : Op → Type) (α : Type) where
  | pure (answer : α)
  | call (op : Op) (next : Ret op → Program Op Ret α)

/-- What each operation may reply, and the world it leaves, in a given world. -/
abbrev Semantics (Op : Type) (Ret : Op → Type) (World : Type) :=
  (op : Op) → World → Ret op → World → Prop

variable {Op : Type} {Ret : Op → Type} {World : Type} {α β γ : Type}

namespace Program

/-- The program that performs one operation and answers its reply. -/
def perform (op : Op) : Program Op Ret (Ret op) :=
  .call op .pure

/-- Sequential composition: the second program starts from the first one's answer. -/
protected def bind : Program Op Ret α → (α → Program Op Ret β) → Program Op Ret β
  | .pure answer, rest => rest answer
  | .call op next, rest => .call op (fun reply => (next reply).bind rest)

instance : Monad (Program Op Ret) where
  pure := .pure
  bind := .bind

@[simp] theorem pure_eq (answer : α)
    : (Pure.pure answer : Program Op Ret α) = .pure answer := rfl

@[simp] theorem pure_bind (answer : α) (rest : α → Program Op Ret β)
    : (Program.pure answer >>= rest) = rest answer := rfl

@[simp] theorem call_bind (op : Op) (next : Ret op → Program Op Ret α)
    (rest : α → Program Op Ret β)
    : (Program.call op next >>= rest) = .call op (fun reply => next reply >>= rest) := rfl

@[simp] theorem perform_bind (op : Op) (rest : Ret op → Program Op Ret β)
    : ((perform op : Program Op Ret (Ret op)) >>= rest) = .call op rest := rfl

/-- Sequential composition is associative, by induction on the first program. -/
@[simp] theorem bind_assoc (program : Program Op Ret α) (middle : α → Program Op Ret β)
    (last : β → Program Op Ret γ)
    : (program >>= middle >>= last) = (program >>= fun answer => middle answer >>= last) := by
  induction program with
  | pure answer => rfl
  | call op next ih => exact congrArg (Program.call op) (funext ih)

-----------------------------------------------------------------------------------------
-- Which operations a program can call at all
-----------------------------------------------------------------------------------------

/-- Every call the program can make, whatever the replies, is one of `ops`. -/
def Within (ops : Op → Prop) : Program Op Ret α → Prop
  | .pure _ => True
  | .call op next => ops op ∧ ∀ reply, (next reply).Within ops

@[simp] theorem within_pure (ops : Op → Prop) (answer : α)
    : (Program.pure answer : Program Op Ret α).Within ops ↔ True := .rfl

@[simp] theorem within_call (ops : Op → Prop) (op : Op) (next : Ret op → Program Op Ret α)
    : (Program.call op next).Within ops ↔ ops op ∧ ∀ reply, (next reply).Within ops := .rfl

@[simp] theorem within_perform (ops : Op → Prop) (op : Op)
    : (perform op : Program Op Ret (Ret op)).Within ops ↔ ops op :=
  ⟨And.left, fun allowed => ⟨allowed, fun _ => trivial⟩⟩

/-- A composition stays within `ops` when both parts do, by induction on the first. -/
theorem Within.bind {ops : Op → Prop} {program : Program Op Ret α}
    {rest : α → Program Op Ret β} (first : program.Within ops)
    (second : ∀ answer, (rest answer).Within ops)
    : (program >>= rest).Within ops := by
  induction program with
  | pure answer => exact second answer
  | call op next ih => exact ⟨first.1, fun reply => ih reply (first.2 reply)⟩

/-- A call followed by the rest, as the `do` notation writes it. -/
theorem Within.perform {ops : Op → Prop} {op : Op} {rest : Ret op → Program Op Ret α}
    (allowed : ops op) (later : ∀ reply, (rest reply).Within ops)
    : ((Program.perform op : Program Op Ret (Ret op)) >>= rest).Within ops :=
  ⟨allowed, later⟩

/-- A program that stays within two kinds of operations stays within what they share. -/
theorem Within.and {first second : Op → Prop} {program : Program Op Ret α}
    (one : program.Within first) (other : program.Within second)
    : program.Within (fun op => first op ∧ second op) := by
  induction program with
  | pure answer => trivial
  | call op next ih => exact ⟨⟨one.1, other.1⟩, fun reply => ih reply (one.2 reply) (other.2 reply)⟩

/-- Staying within some operations is monotone in the operations. -/
theorem Within.mono {small large : Op → Prop} {program : Program Op Ret α}
    (within : program.Within small) (le : ∀ op, small op → large op)
    : program.Within large := by
  induction program with
  | pure answer => trivial
  | call op next ih => exact ⟨le op within.1, fun reply => ih reply (within.2 reply)⟩

/-- Every answer of the program, whatever the replies, is `good`. -/
def Gives (good : α → Prop) : Program Op Ret α → Prop
  | .pure answer => good answer
  | .call _ next => ∀ reply, (next reply).Gives good

@[simp] theorem gives_pure (good : α → Prop) (answer : α)
    : (Program.pure answer : Program Op Ret α).Gives good ↔ good answer := .rfl

@[simp] theorem gives_call (good : α → Prop) (op : Op) (next : Ret op → Program Op Ret α)
    : (Program.call op next).Gives good ↔ ∀ reply, (next reply).Gives good := .rfl

/-- A composition gives what its second part gives after any answer of the first, by
induction on the first.
-/
theorem Gives.bind {middle : α → Prop} {good : β → Prop} {program : Program Op Ret α}
    {rest : α → Program Op Ret β} (first : program.Gives middle)
    (second : ∀ answer, middle answer → (rest answer).Gives good)
    : (program >>= rest).Gives good := by
  induction program with
  | pure answer => exact second answer first
  | call op next ih => exact fun reply => ih reply (first reply)

/-- Of every answer something trivial is known. -/
theorem gives_true (program : Program Op Ret α) : program.Gives (fun _ => True) := by
  induction program with
  | pure answer => trivial
  | call op next ih => exact ih

/-- As `Gives.bind`, when nothing need be known of the first part's answer. -/
theorem gives_bind {good : β → Prop} {program : Program Op Ret α}
    {rest : α → Program Op Ret β} (second : ∀ answer, (rest answer).Gives good)
    : (program >>= rest).Gives good := by
  induction program with
  | pure answer => exact second answer
  | call op next ih => exact fun reply => ih reply

-----------------------------------------------------------------------------------------
-- Evaluation of one program, alone or with other steps in between
-----------------------------------------------------------------------------------------

/-- The program, started in one world, makes its calls and answers in another.
Before each call and before the answer, the rest of the world may take any number of
`rely` steps.
-/
inductive EvaluatesUnder (exec : Semantics Op Ret World) (rely : World → World → Prop)
    : Program Op Ret α → World → α → World → Prop
  | pure {answer start finish} (others : Relation.ReflTransGen rely start finish)
    : EvaluatesUnder exec rely (.pure answer) start answer finish
  | call {op next start before reply after answer finish}
    (others : Relation.ReflTransGen rely start before)
    (executes : exec op before reply after)
    (continues : EvaluatesUnder exec rely (next reply) after answer finish)
    : EvaluatesUnder exec rely (.call op next) start answer finish

/-- The program runs alone: nothing happens between its calls. -/
abbrev Evaluates (exec : Semantics Op Ret World) (program : Program Op Ret α)
    (start : World) (answer : α) (finish : World) : Prop :=
  EvaluatesUnder exec (fun _ _ => False) program start answer finish

variable {exec : Semantics Op Ret World} {rely : World → World → Prop}

/-- Nothing but the empty sequence of steps happens when no step is possible. -/
theorem eq_of_no_steps {start finish : World}
    (steps : Relation.ReflTransGen (fun _ _ : World => False) start finish)
    : start = finish := by
  cases steps with
  | refl => rfl
  | tail _ step => exact step.elim

/-- A finished program answers at once when it runs alone. -/
@[simp] theorem evaluates_pure {answer result : α} {start finish : World}
    : Evaluates exec (.pure answer) start result finish ↔ result = answer ∧ finish = start := by
  constructor
  · rintro ⟨others⟩
    exact ⟨rfl, (eq_of_no_steps others).symm⟩
  · rintro ⟨rfl, rfl⟩
    exact .pure .refl

/-- Running a call alone is executing it and running the rest. -/
@[simp] theorem evaluates_call {op : Op} {next : Ret op → Program Op Ret α} {result : α}
    {start finish : World}
    : Evaluates exec (.call op next) start result finish
      ↔ ∃ reply after, exec op start reply after
          ∧ Evaluates exec (next reply) after result finish := by
  constructor
  · intro run
    cases run with
    | call others executes continues =>
        cases eq_of_no_steps others
        exact ⟨_, _, executes, continues⟩
  · rintro ⟨reply, after, executes, continues⟩
    exact .call .refl executes continues

/-- Running a single call alone is executing it. -/
@[simp] theorem evaluates_perform {op : Op} {reply : Ret op} {start finish : World}
    : Evaluates exec (perform op) start reply finish ↔ exec op start reply finish := by
  simp only [perform, evaluates_call, evaluates_pure]
  constructor
  · rintro ⟨_, _, executes, rfl, rfl⟩
    exact executes
  · intro executes
    exact ⟨reply, finish, executes, rfl, rfl⟩

/-- A composition evaluates as its parts one after the other, by induction on the first
part.
-/
theorem evaluates_bind {program : Program Op Ret α} {rest : α → Program Op Ret β} {result : β}
    {start finish : World}
    : Evaluates exec (program >>= rest) start result finish
      ↔ ∃ answer middle, Evaluates exec program start answer middle
          ∧ Evaluates exec (rest answer) middle result finish := by
  induction program generalizing start with
  | pure answer => simp
  | call op next ih =>
      simp only [call_bind, evaluates_call, ih]
      constructor
      · rintro ⟨reply, after, executes, answer, middle, first, second⟩
        exact ⟨answer, middle, ⟨reply, after, executes, first⟩, second⟩
      · rintro ⟨answer, middle, ⟨reply, after, executes, first⟩, second⟩
        exact ⟨reply, after, executes, answer, middle, first, second⟩

/-- Steps of the others before a program starts belong to its evaluation. -/
theorem EvaluatesUnder.after {program : Program Op Ret α} {start middle finish : World}
    {answer : α} (others : Relation.ReflTransGen rely start middle)
    (run : EvaluatesUnder exec rely program middle answer finish)
    : EvaluatesUnder exec rely program start answer finish := by
  cases run with
  | pure later => exact .pure (others.trans later)
  | call later executes continues => exact .call (others.trans later) executes continues

/-- A composition evaluates under interference as its parts do, by induction on the
first part.
-/
theorem EvaluatesUnder.of_bind {program : Program Op Ret α} {rest : α → Program Op Ret β}
    {result : β} {start finish : World}
    (run : EvaluatesUnder exec rely (program >>= rest) start result finish)
    : ∃ answer middle, EvaluatesUnder exec rely program start answer middle
        ∧ EvaluatesUnder exec rely (rest answer) middle result finish := by
  induction program generalizing start with
  | pure answer => exact ⟨answer, start, .pure .refl, run⟩
  | call op next ih =>
      cases run with
      | call others executes continues =>
          obtain ⟨answer, middle, first, second⟩ := ih _ continues
          exact ⟨answer, middle, .call others executes first, second⟩

/-- A property kept by every step of the others and by every call of the program holds
when the program answers, by induction on the evaluation.
-/
theorem EvaluatesUnder.preserves {program : Program Op Ret α} {start finish : World}
    {answer : α} {keep : World → Prop}
    (run : EvaluatesUnder exec rely program start answer finish)
    (others : ∀ before after, rely before after → keep before → keep after)
    (calls : ∀ op before reply after, exec op before reply after → keep before → keep after)
    (initial : keep start)
    : keep finish := by
  have along {before after : World} (steps : Relation.ReflTransGen rely before after)
      (holds : keep before) : keep after := by
    induction steps with
    | refl => exact holds
    | tail _ step ih => exact others _ _ step ih
  induction run with
  | pure steps => exact along steps initial
  | call steps executes _ ih => exact ih (calls _ _ _ _ executes (along steps initial))

end Program

end Atomic

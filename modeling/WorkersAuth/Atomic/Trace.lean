import WorkersAuth.Atomic.Monitor
import WorkersAuth.Atomic.Sequence

/-! Traces of programs, and what happens after a state of a run.
The calls a thread has made are a trace of its program, so for a short program the history
of a thread can be read off the program's text. A thread that arrives after a state makes
all its calls after that state.
-/

namespace Atomic

variable {Op : Type} {Ret : Op → Type} {World Request α β : Type}

namespace Program

/-- Making these calls, with these replies, leaves this rest of the program. -/
def Leads : Program Op Ret α → List (Call Op Ret) → Program Op Ret α → Prop
  | program, [], rest => rest = program
  | .pure _, _ :: _, _ => False
  | .call op next, made :: more, rest => ∃ reply, made = ⟨op, reply⟩ ∧ (next reply).Leads more rest

@[simp] theorem leads_nil {program rest : Program Op Ret α}
    : program.Leads [] rest ↔ rest = program := by
  cases program <;> exact .rfl

/-- A finished program makes no more calls. -/
@[simp] theorem leads_pure {answer : α} {calls : List (Call Op Ret)} {rest : Program Op Ret α}
    : (Program.pure answer).Leads calls rest ↔ calls = [] ∧ rest = .pure answer := by
  cases calls <;> simp [Leads]

/-- The rest of a trace starts with the next call. -/
@[simp] theorem leads_cons {op : Op} {next : Ret op → Program Op Ret α} {made : Call Op Ret}
    {more : List (Call Op Ret)} {rest : Program Op Ret α}
    : (Program.call op next).Leads (made :: more) rest
      ↔ ∃ reply, made = ⟨op, reply⟩ ∧ (next reply).Leads more rest := .rfl

/-- A call has been made, or the program is where it was. -/
theorem leads_call {op : Op} {next : Ret op → Program Op Ret α} {calls : List (Call Op Ret)}
    {rest : Program Op Ret α}
    : (Program.call op next).Leads calls rest
      ↔ (calls = [] ∧ rest = .call op next)
        ∨ ∃ reply more, calls = ⟨op, reply⟩ :: more ∧ (next reply).Leads more rest := by
  cases calls with
  | nil => simp
  | cons made more =>
      constructor
      · rintro ⟨reply, rfl, leads⟩
        exact .inr ⟨reply, more, rfl, leads⟩
      · rintro (⟨impossible, _⟩ | ⟨reply, same, calls, leads⟩)
        · contradiction
        · cases calls
          exact ⟨reply, rfl, leads⟩

/-- A program that has answered has made its first call. -/
@[simp] theorem leads_call_pure {op : Op} {next : Ret op → Program Op Ret α}
    {calls : List (Call Op Ret)} {answer : α}
    : (Program.call op next).Leads calls (.pure answer)
      ↔ ∃ reply more, calls = ⟨op, reply⟩ :: more ∧ (next reply).Leads more (.pure answer) := by
  simp [leads_call]

/-- A single call has answered with its reply. -/
@[simp] theorem leads_perform {op : Op} {calls : List (Call Op Ret)} {answer : Ret op}
    : (perform op : Program Op Ret (Ret op)).Leads calls (.pure answer)
      ↔ calls = [⟨op, answer⟩] := by
  simp only [perform, leads_call_pure, leads_pure, pure.injEq]
  constructor
  · rintro ⟨reply, more, rfl, rfl, rfl⟩
    rfl
  · rintro rfl
    exact ⟨answer, [], rfl, rfl, rfl⟩

/-- A composition has answered when its second part has, started from the first part's answer;
by induction on the first part.
-/
theorem leads_bind_pure {program : Program Op Ret α} {rest : α → Program Op Ret β}
    {calls : List (Call Op Ret)} {result : β}
    : (program >>= rest).Leads calls (.pure result)
      ↔ ∃ first second answer, calls = first ++ second
          ∧ program.Leads first (.pure answer) ∧ (rest answer).Leads second (.pure result) := by
  induction program generalizing calls with
  | pure answer => simp
  | call op next ih =>
      simp only [call_bind, leads_call_pure, ih]
      constructor
      · rintro ⟨reply, more, rfl, first, second, answer, rfl, before, after⟩
        exact ⟨⟨op, reply⟩ :: first, second, answer, rfl, ⟨reply, first, rfl, before⟩, after⟩
      · rintro ⟨first, second, answer, rfl, ⟨reply, more, rfl, before⟩, after⟩
        exact ⟨reply, more ++ second, rfl, more, second, answer, rfl, before, after⟩

/-- The next call of a composition belongs to its first part or to its second, by induction on
the first part.
-/
theorem leads_bind_call {program : Program Op Ret α} {rest : α → Program Op Ret β}
    {calls : List (Call Op Ret)} {op : Op} {next : Ret op → Program Op Ret β}
    (leads : (program >>= rest).Leads calls (.call op next))
    : (∃ inner, program.Leads calls (.call op inner))
      ∨ ∃ first second answer, calls = first ++ second
          ∧ program.Leads first (.pure answer) ∧ (rest answer).Leads second (.call op next) := by
  induction program generalizing calls with
  | pure answer => exact .inr ⟨[], calls, answer, rfl, leads_nil.mpr rfl, leads⟩
  | call first inner ih =>
      rcases leads_call.mp leads with ⟨rfl, same⟩ | ⟨reply, more, rfl, later⟩
      · cases same
        exact .inl ⟨inner, leads_nil.mpr rfl⟩
      · rcases ih reply later with ⟨next, early⟩ | ⟨front, back, answer, rfl, early, late⟩
        · exact .inl ⟨next, reply, rfl, early⟩
        · exact .inr ⟨⟨first, reply⟩ :: front, back, answer, rfl, ⟨reply, rfl, early⟩, late⟩

/-- Once the first part of a composition has answered, the rest goes on from its answer; by
induction on the trace of the first part.
-/
theorem Leads.after_first {program : Program Op Ret α} {rest : α → Program Op Ret β}
    {first second : List (Call Op Ret)} {answer : α} {final : Program Op Ret β}
    (early : program.Leads first (.pure answer))
    (leads : (program >>= rest).Leads (first ++ second) final)
    : (rest answer).Leads second final := by
  induction first generalizing program with
  | nil =>
      cases leads_nil.mp early
      exact leads
  | cons made more ih =>
      cases program with
      | pure answer => exact early.elim
      | call op next =>
          obtain ⟨reply, rfl, later⟩ := early
          obtain ⟨same, made_eq, rest_leads⟩ := leads
          cases made_eq
          exact ih later rest_leads

/-- Every answer that a program's calls lead to is as promised, by induction on the calls. -/
theorem Gives.answered {good : α → Prop} {program : Program Op Ret α} {calls : List (Call Op Ret)}
    {answer : α} (gives : program.Gives good) (leads : program.Leads calls (.pure answer))
    : good answer := by
  induction calls generalizing program with
  | nil =>
      cases leads_nil.mp leads
      exact gives
  | cons made more ih =>
      cases program with
      | pure other => exact leads.elim
      | call op next =>
          obtain ⟨reply, _, later⟩ := leads
          exact ih (gives reply) later

/-- The next call of a program is one it can make, by induction on the trace. -/
theorem Within.leads {ops : Op → Prop} {program : Program Op Ret α} {calls : List (Call Op Ret)}
    {op : Op} {next : Ret op → Program Op Ret α} (within : program.Within ops)
    (leads : program.Leads calls (.call op next))
    : ops op := by
  induction calls generalizing program with
  | nil =>
      cases leads_nil.mp leads
      exact within.1
  | cons made more ih =>
      cases program with
      | pure answer => exact leads.elim
      | call first rest =>
          obtain ⟨reply, _, later⟩ := leads
          exact ih (within.2 reply) later

/-- The calls a program has made are ones it can make, by induction on the trace. -/
theorem Within.made {ops : Op → Prop} {program rest : Program Op Ret α} {calls : List (Call Op Ret)}
    (within : program.Within ops) (leads : program.Leads calls rest)
    : ∀ made ∈ calls, ops made.op := by
  induction calls generalizing program with
  | nil => simp
  | cons first more ih =>
      cases program with
      | pure answer => exact leads.elim
      | call op next =>
          obtain ⟨reply, rfl, later⟩ := leads
          intro made member
          rcases List.mem_cons.mp member with rfl | old
          · exact within.1
          · exact ih (within.2 reply) later made old

/-- One more call extends the trace, by induction on the trace so far. -/
theorem Leads.snoc {program : Program Op Ret α} {calls : List (Call Op Ret)} {op : Op}
    {next : Ret op → Program Op Ret α} (leads : program.Leads calls (.call op next))
    (reply : Ret op)
    : program.Leads (calls ++ [⟨op, reply⟩]) (next reply) := by
  induction calls generalizing program with
  | nil =>
      cases leads_nil.mp leads
      exact ⟨reply, rfl, leads_nil.mpr rfl⟩
  | cons made more ih =>
      cases program with
      | pure answer => exact leads.elim
      | call first rest =>
          obtain ⟨answer, same, later⟩ := leads
          exact ⟨answer, same, ih later⟩

-----------------------------------------------------------------------------------------
-- Traces of programs that run alone
-----------------------------------------------------------------------------------------

/-- These calls, made one after the other, lead from one world to another. -/
abbrev Executes (exec : Semantics Op Ret World) : World → List (Call Op Ret) → World → Prop :=
  Sequence (fun before made after => exec made.op before made.ret after)

/-- A program that runs alone executes one of its traces, by induction on the program. -/
theorem Evaluates.trace {exec : Semantics Op Ret World} {program : Program Op Ret α}
    {start finish : World} {answer : α} (run : Evaluates exec program start answer finish)
    : ∃ calls, program.Leads calls (.pure answer) ∧ Executes exec start calls finish := by
  induction program generalizing start with
  | pure result =>
      obtain ⟨rfl, rfl⟩ := evaluates_pure.mp run
      exact ⟨[], leads_nil.mpr rfl, .nil⟩
  | call op next ih =>
      obtain ⟨reply, middle, executes, continues⟩ := evaluates_call.mp run
      obtain ⟨calls, leads, rest⟩ := ih reply continues
      exact ⟨⟨op, reply⟩ :: calls, ⟨reply, rfl, leads⟩, .cons executes rest⟩

-----------------------------------------------------------------------------------------
-- Programs whose replies are as promised
-----------------------------------------------------------------------------------------

/-- Every call the program can make is one of `ops`, when every reply is one of `given`. -/
def WithinWhen (given : (op : Op) → Ret op → Prop) (ops : Op → Prop) : Program Op Ret α → Prop
  | .pure _ => True
  | .call op next => ops op ∧ ∀ reply, given op reply → (next reply).WithinWhen given ops

section

variable {given : (op : Op) → Ret op → Prop} {ops : Op → Prop} {exec : Semantics Op Ret World}
  {program : Program Op Ret α} {start finish : World} {answer : α}

@[simp] theorem withinWhen_pure
    : (Program.pure answer : Program Op Ret α).WithinWhen given ops ↔ True := .rfl

@[simp] theorem withinWhen_perform {op : Op}
    : (perform op : Program Op Ret (Ret op)).WithinWhen given ops ↔ ops op :=
  ⟨And.left, fun allowed => ⟨allowed, fun _ _ => trivial⟩⟩

/-- A call followed by the rest, as the `do` notation writes it. -/
theorem WithinWhen.perform {op : Op} {rest : Ret op → Program Op Ret α} (allowed : ops op)
    (later : ∀ reply, given op reply → (rest reply).WithinWhen given ops)
    : ((Program.perform op : Program Op Ret (Ret op)) >>= rest).WithinWhen given ops :=
  ⟨allowed, later⟩

/-- A composition makes the calls of both parts, by induction on the first. -/
theorem WithinWhen.bind {rest : α → Program Op Ret β} (first : program.WithinWhen given ops)
    (second : ∀ answer, (rest answer).WithinWhen given ops)
    : (program >>= rest).WithinWhen given ops := by
  induction program with
  | pure answer => exact second answer
  | call op next ih => exact ⟨first.1, fun reply known => ih reply (first.2 reply known)⟩

/-- What holds whatever the replies holds when they are as promised; by induction. -/
theorem Within.withinWhen (within : program.Within ops) : program.WithinWhen given ops := by
  induction program with
  | pure answer => trivial
  | call op next ih => exact ⟨within.1, fun reply _ => ih reply (within.2 reply)⟩

/-- Promises may be made for a larger set of calls, by induction on the program. -/
theorem WithinWhen.mono {larger : Op → Prop} (within : program.WithinWhen given ops)
    (le : ∀ op, ops op → larger op)
    : program.WithinWhen given larger := by
  induction program with
  | pure answer => trivial
  | call op next ih => exact ⟨le op within.1, fun reply known => ih reply (within.2 reply known)⟩

/-- A program that runs alone, where every call keeps what makes the replies as promised,
executes a trace of the calls it can then make; by induction on the program.
-/
theorem Evaluates.trace_when (run : Evaluates exec program start answer finish) (keep : World → Prop)
    (within : program.WithinWhen given ops)
    (grants : ∀ op before reply after,
      exec op before reply after → keep before → given op reply ∧ keep after)
    (initial : keep start)
    : ∃ calls, program.Leads calls (.pure answer) ∧ Executes exec start calls finish
        ∧ ∀ made ∈ calls, ops made.op := by
  induction program generalizing start with
  | pure result =>
      obtain ⟨rfl, rfl⟩ := evaluates_pure.mp run
      exact ⟨[], leads_nil.mpr rfl, .nil, by simp⟩
  | call op next ih =>
      obtain ⟨reply, middle, executes, continues⟩ := evaluates_call.mp run
      obtain ⟨known, kept⟩ := grants op start reply middle executes initial
      obtain ⟨calls, leads, rest, all⟩ := ih reply continues (within.2 reply known) kept
      refine ⟨⟨op, reply⟩ :: calls, ⟨reply, rfl, leads⟩, .cons executes rest, ?_⟩
      intro made member
      rcases List.mem_cons.mp member with rfl | old
      · exact within.1
      · exact all made old

end

end Program

variable {service : Service Op Ret World Request α} {world : World}
  {pool next later : Pool Op Ret World Request α}
  {condition : Pool Op Ret World Request α → Entry Op Ret → Prop}

/-- The request at this position has been answered. -/
def Pool.Answered (pool : Pool Op Ret World Request α) (index : Nat) (request : Request)
    (answer : α)
    : Prop :=
  pool.threads[index]? = some ⟨request, .pure answer⟩

/-- The request at this position and its answer, if it has been answered. -/
def Pool.answerOf (pool : Pool Op Ret World Request α) (index : Nat) : Option (Request × α) :=
  pool.threads[index]?.bind (fun thread =>
    match thread.rest with
    | .pure answer => some (thread.request, answer)
    | .call .. => none)

theorem Pool.answerOf_eq_some {index : Nat} {request : Request} {answer : α}
    : pool.answerOf index = some (request, answer) ↔ pool.Answered index request answer := by
  simp only [Pool.answerOf, Pool.Answered, Option.bind_eq_some_iff]
  constructor
  · rintro ⟨⟨served, rest⟩, found, same⟩
    cases rest with
    | pure result => cases same; exact found
    | call op next => contradiction
  · intro found
    exact ⟨_, found, rfl⟩

namespace Service

/-- The history of every thread is a trace of its program, by induction on the run. -/
theorem Reachable.leads (reach : service.Reachable world pool)
    : ∀ one ∈ pool.progress, (service.program one.request).Leads one.history one.rest := by
  induction reach with
  | refl => simp [Pool.start, Pool.progress]
  | tail reached step ih =>
      intro one member
      cases step with
      | arrive request =>
          rw [Reachable.progress_arrive reached, List.mem_append, List.mem_singleton] at member
          rcases member with old | rfl
          · exact ih one old
          · exact Program.leads_nil.mpr rfl
      | perform performs =>
          obtain ⟨request, rest, found, replaced⟩ := performs.progress_eq
          rw [replaced] at member
          rcases List.mem_or_eq_of_mem_set member with old | rfl
          · exact ih one old
          · exact (ih _ (List.mem_of_getElem? found)).snoc _

/-- The trace of a thread that is there. -/
theorem Reachable.leads_thread (reach : service.Reachable world pool) {index : Nat}
    {thread : Thread Op Ret Request α} (found : pool.threads[index]? = some thread)
    : (service.program thread.request).Leads (pool.history index) thread.rest := by
  refine reach.leads ⟨thread.request, pool.history index, thread.rest⟩ ?_
  exact List.mem_of_getElem? (i := index) (by rw [getElem?_progress, found]; rfl)

/-- The trace behind an answer. -/
theorem Reachable.leads_answered (reach : service.Reachable world pool) {index : Nat}
    {request : Request} {answer : α} (answered : pool.Answered index request answer)
    : (service.program request).Leads (pool.history index) (.pure answer) :=
  reach.leads_thread answered

/-- The trace behind a call that is about to be made. -/
theorem Performs.leads {entry : Entry Op Ret} (performs : service.Performs pool entry next)
    (reach : service.Reachable world pool)
    : ∃ request rest, pool.requestOf entry.thread = some request
        ∧ (service.program request).Leads (pool.history entry.thread)
            (.call entry.call.op rest) := by
  cases performs with
  | @intro index request op rest reply world running executes =>
      exact ⟨request, rest, by simp [Pool.requestOf, running], reach.leads_thread running⟩

-----------------------------------------------------------------------------------------
-- Answers stay
-----------------------------------------------------------------------------------------

/-- A run under no condition is a run under the trivial one. -/
theorem Run.whenever (run : service.Run pool later)
    : service.RunWhen (fun _ _ => True) pool later := by
  refine Relation.ReflTransGen.mono ?_ _ _ run
  rintro _ _ (request | performs)
  · exact .arrive request
  · exact .perform trivial performs

/-- A run that meets a condition meets every weaker one. -/
theorem RunWhen.weaken {weaker : Pool Op Ret World Request α → Entry Op Ret → Prop}
    (run : service.RunWhen condition pool later)
    (implies : ∀ pool entry, condition pool entry → weaker pool entry)
    : service.RunWhen weaker pool later := by
  refine Relation.ReflTransGen.mono ?_ _ _ run
  rintro _ _ (request | ⟨meets, performs⟩)
  · exact .arrive request
  · exact .perform (implies _ _ meets) performs

/-- An answered request makes no call. -/
theorem Performs.thread_ne {entry : Entry Op Ret} (performs : service.Performs pool entry next)
    {index : Nat} {request : Request} {answer : α}
    (answered : pool.Answered index request answer)
    : entry.thread ≠ index := by
  cases performs with
  | intro running executes =>
      rintro rfl
      have same := running.symm.trans answered
      simp at same

/-- An answer that a call leaves was there before, or the call is the answering thread's own. -/
theorem Performs.answered_before {entry : Entry Op Ret} (performs : service.Performs pool entry next)
    {index : Nat} {request : Request} {answer : α}
    (answered : next.Answered index request answer)
    : pool.Answered index request answer ∨ entry.thread = index := by
  by_cases own : entry.thread = index
  · exact .inr own
  · cases performs with
    | intro running executes =>
        exact .inl ((List.getElem?_set_ne own).symm.trans answered)

/-- An answer that is there after an arrival was there before, or takes no call to give. -/
theorem answered_before_arrive {arriving : Request} {index : Nat} {request : Request} {answer : α}
    (answered : (service.arrive pool arriving).Answered index request answer)
    : pool.Answered index request answer ∨ service.program request = .pure answer := by
  simp only [Pool.Answered, arrive, List.getElem?_append] at answered
  split at answered
  · exact .inl answered
  · rw [List.getElem?_singleton] at answered
    split at answered
    · obtain ⟨rfl, immediate⟩ : arriving = request ∧ service.program arriving = .pure answer := by
        simpa using answered
      exact .inr immediate
    · contradiction

/-- An answered request stays as it is along a run, by induction on the run. -/
theorem answered_run (run : service.Run pool later) {index : Nat} {request : Request} {answer : α}
    (answered : pool.Answered index request answer)
    : later.Answered index request answer ∧ later.history index = pool.history index := by
  induction run with
  | refl => exact ⟨answered, rfl⟩
  | tail _ step ih =>
      obtain ⟨still, same⟩ := ih
      cases step with
      | arrive request =>
          refine ⟨?_, same⟩
          have inside := (List.getElem?_eq_some_iff.mp still).1
          exact (List.getElem?_append_left inside).trans still
      | perform performs =>
          have other := performs.thread_ne still
          refine ⟨?_, by rw [performs.history_eq, if_neg other, List.append_nil, same]⟩
          cases performs with
          | intro running executes =>
              exact (List.getElem?_set_ne other).trans still

/-- A history only grows along a run. -/
theorem mem_history_run (run : service.Run pool later) {index : Nat} {call : Call Op Ret}
    (recorded : call ∈ pool.history index)
    : call ∈ later.history index :=
  mem_history.mpr ((log_grows run).subset (mem_history.mp recorded))

-----------------------------------------------------------------------------------------
-- Requests that arrive later
-----------------------------------------------------------------------------------------

/-- A request that has not arrived yet makes all its calls later, each in a state that the
run goes through and in which it has made the calls before; by induction on the run.
-/
theorem Reachable.made_later_split (reach : service.Reachable world pool)
    (run : service.RunWhen condition pool later) {index : Nat} (new : pool.threads.length ≤ index)
    {call : Call Op Ret} {front back : List (Call Op Ret)}
    (split : later.history index = front ++ call :: back)
    : ∃ earlier following, service.RunWhen condition pool earlier
        ∧ earlier.history index = front ∧ condition earlier ⟨index, call⟩
        ∧ service.Performs earlier ⟨index, call⟩ following
        ∧ service.RunWhen condition following later := by
  induction run generalizing back with
  | refl =>
      rw [reach.history_nil new] at split
      simp at split
  | @tail before after toBefore step ih =>
      cases step with
      | arrive request =>
          obtain ⟨earlier, following, run, past, meets, performs, rest⟩ := ih split
          exact ⟨earlier, following, run, past, meets, performs, rest.tail (.arrive request)⟩
      | @perform entry _ meets performs =>
          have histories := (performs.history_eq index).symm.trans split
          by_cases own : entry.thread = index
          · rw [if_pos own] at histories
            rcases List.eq_nil_or_concat back with rfl | ⟨shorter, final, rfl⟩
            · obtain ⟨past, same⟩ := List.append_inj' histories rfl
              cases List.singleton_inj.mp same
              subst own
              exact ⟨before, after, toBefore, past, meets, performs, .refl⟩
            · rw [List.concat_eq_append, ← List.cons_append, ← List.append_assoc] at histories
              obtain ⟨earlier, following, run, past, met, made, rest⟩ :=
                ih (List.append_inj' histories rfl).1
              exact ⟨earlier, following, run, past, met, made, rest.tail (.perform meets performs)⟩
          · rw [if_neg own, List.append_nil] at histories
            obtain ⟨earlier, following, run, past, met, made, rest⟩ := ih histories
            exact ⟨earlier, following, run, past, met, made, rest.tail (.perform meets performs)⟩

/-- The same of a call that is somewhere in the history. -/
theorem Reachable.made_later_when (reach : service.Reachable world pool)
    (run : service.RunWhen condition pool later) {index : Nat} (new : pool.threads.length ≤ index)
    {call : Call Op Ret} (recorded : call ∈ later.history index)
    : ∃ earlier following, service.RunWhen condition pool earlier
        ∧ condition earlier ⟨index, call⟩ ∧ service.Performs earlier ⟨index, call⟩ following
        ∧ service.RunWhen condition following later := by
  obtain ⟨front, back, split⟩ := List.append_of_mem recorded
  obtain ⟨earlier, following, run, _, rest⟩ := reach.made_later_split run new split
  exact ⟨earlier, following, run, rest⟩

end Service

end Atomic

import WorkersAuth.Atomic.Ensures
import WorkersAuth.DeviceAuth.Footprint

/-! Runs of one handler alone, in surroundings of which something is known. -/

namespace WorkersAuth

open Atomic DeviceAuth

/-- What is known of the host's answers beyond what the platform fixes. -/
abbrev Surroundings := (op : HostCall) → op.Reply → Prop

/-- The reply to a call is one the surroundings give. -/
def Surroundings.Allow (surroundings : Surroundings) : (op : Op) → op.Reply → Prop
  | .host call, reply => surroundings call reply
  | _, _ => True

/-- The executions of the calls that the surroundings allow. -/
def execIn {σ : Type} (platform : Platform) (surroundings : Surroundings)
    (sessions : Semantics SessionCall SessionCall.Reply σ)
    : Semantics Op Op.Reply (World σ) :=
  fun op before reply after =>
    exec platform sessions op before reply after ∧ surroundings.Allow op reply

/-- The surroundings answer every question. -/
def Surroundings.Total (platform : Platform) (surroundings : Surroundings) : Prop :=
  ∀ call : HostCall, ∃ reply, call.Answers platform reply ∧ surroundings call reply

/-- The session store answers every call: none throws. -/
def Responsive {σ : Type} (sessions : Semantics SessionCall SessionCall.Reply σ) : Prop :=
  ∀ call before, ∃ reply after, sessions call before reply after

variable {σ α : Type} {platform : Platform} {surroundings : Surroundings}
  {sessions : Semantics SessionCall SessionCall.Reply σ} {world : World σ}

/-- A call of the host, then the rest with any answer the surroundings give. -/
theorem ensures_host {call : HostCall} {rest : call.Reply → Handler α} {post : α → World σ → Prop}
    (total : surroundings.Total platform)
    (later : ∀ reply, surroundings call reply
      → (rest reply).Ensures (execIn platform surroundings sessions) world post)
    : ((Program.perform (Op.host call) : Handler call.Reply) >>= rest).Ensures
        (execIn platform surroundings sessions) world post := by
  obtain ⟨reply, answers, given⟩ := total call
  refine .perform ⟨reply, world, ⟨answers, rfl⟩, given⟩ ?_
  rintro other _ ⟨⟨_, rfl⟩, given⟩
  exact later other given

/-- A call of the store that does not throw, then the rest with its answer. -/
theorem ensures_store {call : StoreCall} {rest : call.Reply → Handler α}
    {post : α → World σ → Prop} {result : call.Reply × Database}
    (ran : call.run world.db = some result)
    (later : (rest result.1).Ensures (execIn platform surroundings sessions)
      ⟨result.2, world.sessions⟩ post)
    : ((Program.perform (Op.store call) : Handler call.Reply) >>= rest).Ensures
        (execIn platform surroundings sessions) world post := by
  refine .perform ⟨result.1, ⟨result.2, world.sessions⟩, ⟨ran, rfl⟩, trivial⟩ ?_
  rintro reply ⟨after, _⟩ ⟨⟨ran', rfl⟩, _⟩
  obtain rfl : result = (reply, after) := Option.some.inj (ran.symm.trans ran')
  exact later

/-- Incidental calls, and those that mint a session, leave the tables as they are. -/
theorem db_eq_of_minting {op : Op} {reply : op.Reply} {before after : World σ} (minting : op.Minting)
    (executes : exec platform sessions op before reply after)
    : after.db = before.db := by
  rcases op with call | call | call
  · cases call <;> first | exact minting.elim | skip
    exact (Prod.mk.inj (Option.some.inj executes.1)).2.symm
  · exact executes.2
  · exact congrArg World.db executes.2

/-- Such calls never throw. -/
theorem minting_possible (total : surroundings.Total platform) (responsive : Responsive sessions)
    {op : Op} (minting : op.Minting) (before : World σ)
    : ∃ reply after, execIn platform surroundings sessions op before reply after := by
  rcases op with call | call | call
  · cases call <;> first | exact minting.elim | skip
    exact ⟨_, before, ⟨rfl, rfl⟩, trivial⟩
  · obtain ⟨reply, after, executes⟩ := responsive call before.sessions
    exact ⟨reply, ⟨before.db, after⟩, ⟨executes, rfl⟩, trivial⟩
  · obtain ⟨reply, answers, given⟩ := total call
    exact ⟨reply, before, ⟨answers, rfl⟩, given⟩

/-- A part that mints a session ends with the tables as they were. -/
theorem ensures_minting (total : surroundings.Total platform) (responsive : Responsive sessions)
    {part : Handler α} {good : α → Prop} (within : part.Within Op.Minting) (gives : part.Gives good)
    : part.Ensures (execIn platform surroundings sessions) world
        (fun answer after => good answer ∧ after.db = world.db) :=
  within.ensures gives (fun after => after.db = world.db)
    (fun _ before minting _ => minting_possible total responsive minting before)
    (fun _ _ _ _ minting executes same => (db_eq_of_minting minting executes.1).trans same) rfl

/-- An incidental part ends with the tables as they were. -/
theorem ensures_incidental (total : surroundings.Total platform) (responsive : Responsive sessions)
    {part : Handler α} {good : α → Prop} (within : part.Within Op.Incidental)
    (gives : part.Gives good)
    : part.Ensures (execIn platform surroundings sessions) world
        (fun answer after => good answer ∧ after.db = world.db) :=
  ensures_minting total responsive (within.mono (fun _ => minting_of_incidental)) gives

end WorkersAuth

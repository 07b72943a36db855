import WorkersAuth.Atomic.Monitor

/-! Monitors that remember everything.
A journal is a request together with all the calls made for it so far. A protocol stated
over journals says which calls may follow which, so every call in the log of a run can be
traced back to the calls of the same request that it rests on.
-/

namespace Atomic

variable {Op : Type} {Ret : Op → Type} {World Request α β : Type}

/-- A request and the calls made for it so far, oldest first. -/
structure Journal (Op : Type) (Ret : Op → Type) (Request : Type) where
  request : Request
  history : List (Call Op Ret)

namespace Journal

/-- The journal after one more call. -/
def write (journal : Journal Op Ret Request) (op : Op) (reply : Ret op)
    : Journal Op Ret Request :=
  { journal with history := journal.history ++ [⟨op, reply⟩] }

/-- The journal is of this request, and these calls are in it. -/
structure Knows (request : Request) (calls : List (Call Op Ret))
    (journal : Journal Op Ret Request)
    : Prop where
  request_eq : journal.request = request
  recorded : ∀ call ∈ calls, call ∈ journal.history

variable {request : Request} {calls : List (Call Op Ret)} {journal : Journal Op Ret Request}

/-- What is in a journal stays there. -/
theorem Knows.write (knows : Knows request calls journal) (op : Op) (reply : Ret op)
    : Knows request calls (journal.write op reply) where
  request_eq := knows.request_eq
  recorded call member := List.mem_append_left _ (knows.recorded call member)

/-- The newest call is in the journal. -/
theorem Knows.add (knows : Knows request calls journal) (op : Op) (reply : Ret op)
    : Knows request (⟨op, reply⟩ :: calls) (journal.write op reply) where
  request_eq := knows.request_eq
  recorded call member := by
    rcases List.mem_cons.mp member with rfl | old
    · exact List.mem_append_right _ (List.mem_singleton_self _)
    · exact (knows.write op reply).recorded call old

end Journal

/-- The monitor of a protocol over journals. -/
def Monitor.journal (allows : Journal Op Ret Request → Op → Prop)
    (possible : (op : Op) → Ret op → Prop)
    : Monitor Op Ret (Journal Op Ret Request) where
  allows := allows
  next journal op reply := journal.write op reply
  possible := possible

section Rules

variable {allows : Journal Op Ret Request → Op → Prop} {possible : (op : Op) → Ret op → Prop}
  {post : Journal Op Ret Request → α → Prop} {request : Request} {calls : List (Call Op Ret)}
  {journal : Journal Op Ret Request}

/-- The ghost state of a journal's monitor is the journal, by induction on the calls. -/
@[simp] theorem Monitor.journal_track (earlier history : List (Call Op Ret))
    : (Monitor.journal allows possible).track ⟨request, earlier⟩ history
      = ⟨request, earlier ++ history⟩ := by
  induction history generalizing earlier with
  | nil => simp
  | cons call rest ih =>
      have later := ih (earlier ++ [call])
      rw [List.append_assoc] at later
      exact later

/-- A call that the protocol allows, then the rest, which may rely on the call as well. -/
theorem Program.Obeys.recall {op : Op} {rest : Ret op → Program Op Ret α}
    (knows : journal.Knows request calls) (allowed : allows journal op)
    (later : ∀ reply next, possible op reply → Journal.Knows request (⟨op, reply⟩ :: calls) next
      → (rest reply).Obeys (.journal allows possible) post next)
    : ((Program.perform op : Program Op Ret (Ret op)) >>= rest).Obeys
        (.journal allows possible) post journal :=
  .perform allowed (fun reply answers => later reply _ answers (knows.add op reply))

/-- A part whose calls the protocol allows at any time, then the rest. -/
theorem Program.Within.obeys_journal {ops : Op → Prop} {program : Program Op Ret β}
    {rest : β → Program Op Ret α} (within : program.Within ops)
    (free : ∀ journal op, Journal.Knows request calls journal → ops op → allows journal op)
    (knows : journal.Knows request calls)
    (second : ∀ answer next, Journal.Knows request calls next
      → (rest answer).Obeys (.journal allows possible) post next)
    : (program >>= rest).Obeys (.journal allows possible) post journal := by
  refine within.obeys_bind_keeps (Program.gives_true program) (fun next op kept member => ?_) knows
    (fun next answer kept _ => second answer next kept)
  exact ⟨free next op kept member, fun reply => Journal.Knows.write kept op reply⟩

/-- A part whose calls the protocol allows at any time, and nothing after it. -/
theorem Program.Within.obeys_free {ops : Op → Prop} {program : Program Op Ret α}
    (within : program.Within ops) (free : ∀ journal op, ops op → allows journal op)
    : program.Obeys (.journal allows possible) (fun _ _ => True) journal :=
  within.obeys_keeps (fun _ => True)
    (fun journal op _ member => ⟨free journal op member, fun _ => trivial⟩) trivial

end Rules

namespace Service

variable {service : Service Op Ret World Request α} {world : World}
  {pool : Pool Op Ret World Request α} {allows : Journal Op Ret Request → Op → Prop}
  {possible : (op : Op) → Ret op → Prop} {post : Journal Op Ret Request → α → Prop}

/-- A call in the log of a run: the state it was made in and the request it was made for,
which the protocol allowed to make it.
-/
structure Made (service : Service Op Ret World Request α)
    (allows : Journal Op Ret Request → Op → Prop) (world : World)
    (pool : Pool Op Ret World Request α) (before : List (Entry Op Ret)) (entry : Entry Op Ret)
    (request : Request) (earlier following : Pool Op Ret World Request α)
    : Prop where
  reachable : service.Reachable world earlier
  log_eq : earlier.log = before
  performs : service.Performs earlier entry following
  run : service.Run following pool
  serves : pool.requestOf entry.thread = some request
  allowed : allows ⟨request, earlier.history entry.thread⟩ entry.call.op

/-- Every call in the log of a run was made at some moment, as its protocol allows. -/
theorem Reachable.made (reach : service.Reachable world pool)
    (faithful : service.Faithful (Monitor.journal allows possible))
    (programs : ∀ request,
      (service.program request).Obeys (.journal allows possible) post ⟨request, []⟩)
    {before after : List (Entry Op Ret)} {entry : Entry Op Ret}
    (split : pool.log = before ++ entry :: after)
    : ∃ request earlier following,
        Made service allows world pool before entry request earlier following := by
  obtain ⟨earlier, following, reachable, log_eq, performs, run⟩ := reach.at_entry split
  obtain ⟨request, rest, found, _⟩ := performs.progress_eq
  have obeying := reachable.obeys faithful programs _ (List.mem_of_getElem? found)
  rw [Monitor.journal_track, List.nil_append] at obeying
  refine ⟨request, earlier, following, reachable, log_eq, performs, run, ?_, obeying.1⟩
  refine requestOf_run (Relation.ReflTransGen.head (.perform performs) run) ?_
  rw [getElem?_progress, Option.map_eq_some_iff] at found
  obtain ⟨thread, found, same⟩ := found
  rw [Pool.requestOf, found, Option.map_some, show thread.request = request from
    congrArg Progress.request same]

/-- A call in the journal of a request is in the log, made by the same thread. -/
theorem Made.split {before : List (Entry Op Ret)} {entry : Entry Op Ret} {request : Request}
    {earlier following : Pool Op Ret World Request α} {call : Call Op Ret}
    (made : Made service allows world pool before entry request earlier following)
    (recorded : call ∈ earlier.history entry.thread)
    : ∃ first middle, before = first ++ ⟨entry.thread, call⟩ :: middle := by
  rw [mem_history, made.log_eq] at recorded
  exact List.append_of_mem recorded

/-- The thread made this call at a moment of the run at which the world was so. -/
def MadeWhen (service : Service Op Ret World Request α) (world : World)
    (pool : Pool Op Ret World Request α) (index : Nat) (call : Call Op Ret) (so : World → Prop)
    : Prop :=
  ∃ earlier following,
    service.Reachable world earlier ∧ service.Performs earlier ⟨index, call⟩ following
    ∧ service.Run following pool ∧ so earlier.world

/-- A recorded call was made when the world was as every execution of it needs. -/
theorem Reachable.madeWhen (reach : service.Reachable world pool) {index : Nat}
    {call : Call Op Ret} (recorded : call ∈ pool.history index) (so : World → Prop)
    (needs : ∀ before after, service.exec call.op before call.ret after → so before)
    : MadeWhen service world pool index call so := by
  obtain ⟨before, after, split⟩ := List.append_of_mem (mem_history.mp recorded)
  obtain ⟨earlier, following, reachable, _, performs, run⟩ := reach.at_entry split
  exact ⟨earlier, following, reachable, performs, run, needs _ _ performs.executes⟩

end Service

end Atomic

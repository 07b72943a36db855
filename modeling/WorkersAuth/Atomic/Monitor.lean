import WorkersAuth.Atomic.Pool

/-! Proof rules for interleaved programs.
A monitor watches the calls of one thread: it keeps a ghost state computed from that
thread's own calls and says which calls are allowed in it. A program that obeys its
monitor whatever the possible replies lets an invariant about the world, the log and the ghost
states of all threads be proved one call at a time, for every interleaving.
-/

namespace Atomic

variable {Op : Type} {Ret : Op → Type} {World Request α β σ : Type}

/-- A ghost state per thread, advanced by the thread's own calls, the calls that are allowed
in each ghost state, and the replies that are possible.
-/
structure Monitor (Op : Type) (Ret : Op → Type) (σ : Type) where
  allows : σ → Op → Prop
  next : σ → (op : Op) → Ret op → σ
  possible : (op : Op) → Ret op → Prop := fun _ _ => True

namespace Monitor

variable (monitor : Monitor Op Ret σ)

/-- The ghost state after some calls. -/
def track (initial : σ) (history : List (Call Op Ret)) : σ :=
  history.foldl (fun state call => monitor.next state call.op call.ret) initial

@[simp] theorem track_nil (initial : σ) : monitor.track initial [] = initial := rfl

@[simp] theorem track_append (initial : σ) (first second : List (Call Op Ret))
    : monitor.track initial (first ++ second)
      = monitor.track (monitor.track initial first) second :=
  List.foldl_append

@[simp] theorem track_singleton (initial : σ) (call : Call Op Ret)
    : monitor.track initial [call] = monitor.next initial call.op call.ret := rfl

/-- In this ghost state the monitor lets these calls pass and does not notice them. -/
def Ignores (state : σ) (ops : Op → Prop) : Prop :=
  ∀ op, ops op → monitor.allows state op ∧ ∀ reply, monitor.next state op reply = state

variable {monitor} in
/-- Ignoring some calls is ignoring any part of them. -/
theorem Ignores.mono {state : σ} {small large : Op → Prop} (ignores : monitor.Ignores state large)
    (le : ∀ op, small op → large op)
    : monitor.Ignores state small :=
  fun op member => ignores op (le op member)

/-- The monitor that remembers all calls and allows every call. -/
def recorder (Op : Type) (Ret : Op → Type) : Monitor Op Ret (List (Call Op Ret)) where
  allows _ _ := True
  next history op reply := history ++ [⟨op, reply⟩]

/-- The recorder's ghost state is the history itself, by induction on the history. -/
@[simp] theorem recorder_track (initial history : List (Call Op Ret))
    : (recorder Op Ret).track initial history = initial ++ history := by
  induction history generalizing initial with
  | nil => simp
  | cons call rest ih =>
      have := ih (initial ++ [call])
      simpa [track, recorder] using this

/-- The monitor that allows the calls in `ops` and remembers nothing. -/
def only (ops : Op → Prop) : Monitor Op Ret Unit where
  allows _ op := ops op
  next _ _ _ := ()

end Monitor

namespace Program

/-- Started in ghost state `state`, the program makes only allowed calls whatever the
possible replies, and every answer satisfies `post` in the ghost state reached.
-/
def Obeys (monitor : Monitor Op Ret σ) (post : σ → α → Prop) : σ → Program Op Ret α → Prop
  | state, .pure answer => post state answer
  | state, .call op next =>
      monitor.allows state op
      ∧ ∀ reply, monitor.possible op reply
        → (next reply).Obeys monitor post (monitor.next state op reply)

variable {monitor : Monitor Op Ret σ} {post : σ → α → Prop} {state : σ}

@[simp] theorem obeys_pure {answer : α}
    : (Program.pure answer : Program Op Ret α).Obeys monitor post state ↔ post state answer :=
  .rfl

/-- An answer, as the `do` notation writes it. -/
theorem Obeys.answer {answer : α} (holds : post state answer)
    : (Pure.pure answer : Program Op Ret α).Obeys monitor post state := holds

@[simp] theorem obeys_perform {op : Op} {post : σ → Ret op → Prop}
    : (perform op : Program Op Ret (Ret op)).Obeys monitor post state
      ↔ monitor.allows state op
        ∧ ∀ reply, monitor.possible op reply → post (monitor.next state op reply) reply := .rfl

/-- A composition obeys when the second part obeys from every outcome of the first, by
induction on the first part.
-/
theorem Obeys.bind {program : Program Op Ret α} {rest : α → Program Op Ret β}
    {post : σ → β → Prop} {middle : σ → α → Prop}
    (first : program.Obeys monitor middle state)
    (second : ∀ state answer, middle state answer → (rest answer).Obeys monitor post state)
    : (program >>= rest).Obeys monitor post state := by
  induction program generalizing state with
  | pure answer => exact second state answer first
  | call op next ih =>
      exact ⟨first.1, fun reply possible => ih reply (first.2 reply possible)⟩

/-- A call followed by the rest, as the `do` notation writes it. -/
theorem Obeys.perform {op : Op} {rest : Ret op → Program Op Ret α}
    (allowed : monitor.allows state op)
    (later : ∀ reply, monitor.possible op reply
      → (rest reply).Obeys monitor post (monitor.next state op reply))
    : ((Program.perform op : Program Op Ret (Ret op)) >>= rest).Obeys monitor post state :=
  ⟨allowed, later⟩

/-- A stronger postcondition is as good. -/
theorem Obeys.mono {program : Program Op Ret α} {weaker : σ → α → Prop}
    (obeys : program.Obeys monitor post state)
    (implies : ∀ state answer, post state answer → weaker state answer)
    : program.Obeys monitor weaker state := by
  induction program generalizing state with
  | pure answer => exact implies state answer obeys
  | call op next ih =>
      exact ⟨obeys.1, fun reply possible => ih reply (obeys.2 reply possible)⟩

/-- Staying within some operations is obeying the monitor that allows just them, by
induction on the program.
-/
theorem obeys_only {ops : Op → Prop} {program : Program Op Ret α}
    : program.Obeys (Monitor.only ops) (fun _ _ => True) () ↔ program.Within ops := by
  induction program with
  | pure answer => rfl
  | call op next ih =>
      refine and_congr Iff.rfl (forall_congr' (fun reply => ?_))
      rw [← ih reply]
      exact ⟨fun obeys => obeys trivial, fun obeys _ => obeys⟩

/-- A program whose calls are allowed and keep a property of the ghost state keeps it, by
induction on the program.
-/
theorem Within.obeys_keeps {ops : Op → Prop} {program : Program Op Ret α}
    (within : program.Within ops) (keep : σ → Prop)
    (keeps : ∀ state op, keep state → ops op
      → monitor.allows state op ∧ ∀ reply, keep (monitor.next state op reply))
    (initial : keep state)
    : program.Obeys monitor (fun after _ => keep after) state := by
  induction program generalizing state with
  | pure answer => exact initial
  | call op next ih =>
      obtain ⟨allowed, kept⟩ := keeps state op initial within.1
      exact ⟨allowed, fun reply _ => ih reply (within.2 reply) (kept reply)⟩

/-- What such a program keeps goes along with what it answers, by induction on the program. -/
theorem Within.obeys_gives {ops : Op → Prop} {program : Program Op Ret α} {good : α → Prop}
    (within : program.Within ops) (gives : program.Gives good) (keep : σ → Prop)
    (keeps : ∀ state op, keep state → ops op
      → monitor.allows state op ∧ ∀ reply, keep (monitor.next state op reply))
    (initial : keep state)
    : program.Obeys monitor (fun after answer => keep after ∧ good answer) state := by
  induction program generalizing state with
  | pure answer => exact ⟨initial, gives⟩
  | call op next ih =>
      obtain ⟨allowed, kept⟩ := keeps state op initial within.1
      exact ⟨allowed, fun reply _ => ih reply (within.2 reply) (gives reply) (kept reply)⟩

/-- A program whose calls the monitor always allows and never notices leaves the ghost
state as it found it.
-/
theorem Within.obeys {ops : Op → Prop} {program : Program Op Ret α} (within : program.Within ops)
    (ignores : monitor.Ignores state ops)
    : program.Obeys monitor (fun after _ => after = state) state := by
  refine within.obeys_keeps (· = state) ?_ rfl
  rintro _ op rfl allowed
  exact ignores op allowed

/-- After a part the monitor does not notice, the rest goes on in the same ghost state. -/
theorem Within.obeys_bind {ops : Op → Prop} {program : Program Op Ret α}
    {rest : α → Program Op Ret β} {post : σ → β → Prop} (within : program.Within ops)
    (ignores : monitor.Ignores state ops)
    (second : ∀ answer, (rest answer).Obeys monitor post state)
    : (program >>= rest).Obeys monitor post state :=
  (within.obeys ignores).bind (fun _ answer same => same ▸ second answer)

/-- After a part whose calls are allowed and keep a property of the ghost state, the rest
goes on with that property and with what is known of the part's answer; by induction on the
part.
-/
theorem Within.obeys_bind_keeps {ops : Op → Prop} {program : Program Op Ret α}
    {rest : α → Program Op Ret β} {post : σ → β → Prop} {good : α → Prop} {keep : σ → Prop}
    (within : program.Within ops) (gives : program.Gives good)
    (keeps : ∀ state op, keep state → ops op
      → monitor.allows state op ∧ ∀ reply, keep (monitor.next state op reply))
    (initial : keep state)
    (second : ∀ state answer, keep state → good answer → (rest answer).Obeys monitor post state)
    : (program >>= rest).Obeys monitor post state := by
  induction program generalizing state with
  | pure answer => exact second state answer initial gives
  | call op next ih =>
      obtain ⟨allowed, kept⟩ := keeps state op initial within.1
      exact ⟨allowed, fun reply _ => ih reply (within.2 reply) (gives reply) (kept reply)⟩

end Program

-----------------------------------------------------------------------------------------
-- The threads of a pool under a monitor
-----------------------------------------------------------------------------------------

/-- What one request has done so far: its calls, and what is left of its program. -/
structure Progress (Op : Type) (Ret : Op → Type) (Request α : Type) where
  request : Request
  history : List (Call Op Ret)
  rest : Program Op Ret α

/-- The request has not answered yet. -/
def Progress.inFlight (one : Progress Op Ret Request α) : Bool :=
  match one.rest with
  | .pure _ => false
  | .call .. => true

/-- The progress of every request that has arrived, in order of arrival. -/
def Pool.progress (pool : Pool Op Ret World Request α) : List (Progress Op Ret Request α) :=
  pool.threads.mapIdx (fun index thread => ⟨thread.request, pool.history index, thread.rest⟩)

/-- The ghost states of all requests, in order of arrival. -/
def Pool.ghosts (pool : Pool Op Ret World Request α) (monitor : Monitor Op Ret σ)
    (initial : Request → σ)
    : List σ :=
  pool.progress.map (fun one => monitor.track (initial one.request) one.history)

/-- Counting the threads in some ghost states: when one thread moves on, the count moves by
what that thread contributes.
-/
theorem countP_ghosts_set {ghosts : List σ} {index : Nat} {state : σ}
    (found : ghosts[index]? = some state) (next : σ) (counts : σ → Bool)
    : (ghosts.set index next).countP counts + (if counts state then 1 else 0)
      = ghosts.countP counts + (if counts next then 1 else 0) := by
  obtain ⟨inside, rfl⟩ := List.getElem?_eq_some_iff.mp found
  have contributes := List.boole_getElem_le_countP (p := counts) inside
  rw [List.countP_set inside]
  omega

namespace Service

variable {service : Service Op Ret World Request α} {world : World}
  {pool next : Pool Op Ret World Request α} {monitor : Monitor Op Ret σ}
  {initial : Request → σ} {post : σ → α → Prop}

variable (service monitor) in
/-- The service gives only the replies that the monitor takes to be possible. -/
def Faithful : Prop :=
  ∀ op before reply after, service.exec op before reply after → monitor.possible op reply

/-- The progress at one position is that of the thread at it. -/
theorem getElem?_progress (pool : Pool Op Ret World Request α) (index : Nat)
    : pool.progress[index]?
      = pool.threads[index]?.map
          (fun thread => ⟨thread.request, pool.history index, thread.rest⟩) := by
  simp [Pool.progress, List.getElem?_mapIdx]

/-- An arrival adds a request without history. -/
theorem Reachable.progress_arrive (reach : service.Reachable world pool) (request : Request)
    : (service.arrive pool request).progress
      = pool.progress ++ [⟨request, [], service.program request⟩] := by
  simp only [Pool.progress, Service.arrive, List.mapIdx_append, List.mapIdx_cons,
    List.mapIdx_nil]
  congr 2
  simp only [Nat.zero_add, Progress.mk.injEq, true_and, and_true]
  exact reach.history_nil (Nat.le_refl _)

/-- A call replaces the progress of its own thread only. -/
theorem Performs.progress_eq {entry : Entry Op Ret} (performs : service.Performs pool entry next)
    : ∃ request rest,
        pool.progress[entry.thread]?
          = some ⟨request, pool.history entry.thread, .call entry.call.op rest⟩
        ∧ next.progress
          = pool.progress.set entry.thread
              ⟨request, pool.history entry.thread ++ [entry.call], rest entry.call.ret⟩ := by
  have histories := performs.history_eq
  cases performs with
  | @intro index request op rest reply world running executes =>
      refine ⟨request, rest, by simp [getElem?_progress, running], ?_⟩
      apply List.ext_getElem?
      intro position
      rw [getElem?_progress, histories]
      have inside := (List.getElem?_eq_some_iff.mp running).1
      by_cases same : index = position
      · subst same
        simp [inside, Pool.progress]
      · simp [same, getElem?_progress]

/-- Every thread of a reachable state is still obeying its monitor, by induction on the
run.
-/
theorem Reachable.obeys (reach : service.Reachable world pool)
    (faithful : service.Faithful monitor)
    (programs : ∀ request, (service.program request).Obeys monitor post (initial request))
    : ∀ one ∈ pool.progress,
        one.rest.Obeys monitor post (monitor.track (initial one.request) one.history) := by
  induction reach with
  | refl => simp [Pool.start, Pool.progress]
  | tail reached step ih =>
      intro one member
      cases step with
      | arrive request =>
          rw [Reachable.progress_arrive reached, List.mem_append, List.mem_singleton] at member
          rcases member with old | rfl
          · exact ih one old
          · exact programs request
      | @perform entry _ performs =>
          obtain ⟨request, rest, before, after⟩ := performs.progress_eq
          rw [after] at member
          rcases List.mem_or_eq_of_mem_set member with old | rfl
          · exact ih one old
          · have running := ih _ (List.mem_of_getElem? before)
            simpa using running.2 _ (faithful _ _ _ _ performs.executes)

/-- Where allowed calls keep the world so that the replies are possible, a reachable world is so and
every thread is still obeying its monitor; by induction on the run.
-/
theorem Reachable.keeps (reach : service.Reachable world pool) {keep : World → Prop}
    (initially : keep world)
    (programs : ∀ request, (service.program request).Obeys monitor post (initial request))
    (calls : ∀ state op before reply after, monitor.allows state op →
      service.exec op before reply after → keep before → monitor.possible op reply ∧ keep after)
    : keep pool.world
      ∧ ∀ one ∈ pool.progress,
          one.rest.Obeys monitor post (monitor.track (initial one.request) one.history) := by
  induction reach with
  | refl => exact ⟨initially, by simp [Pool.start, Pool.progress]⟩
  | tail reached step ih =>
      obtain ⟨kept, obeying⟩ := ih
      cases step with
      | arrive request =>
          refine ⟨kept, fun one member => ?_⟩
          rw [Reachable.progress_arrive reached, List.mem_append, List.mem_singleton] at member
          rcases member with old | rfl
          · exact obeying one old
          · exact programs request
      | @perform entry _ performs =>
          obtain ⟨request, rest, before, after⟩ := performs.progress_eq
          have running := obeying _ (List.mem_of_getElem? before)
          obtain ⟨possible, keptAfter⟩ := calls _ _ _ _ _ running.1 performs.executes kept
          refine ⟨keptAfter, fun one member => ?_⟩
          rw [after] at member
          rcases List.mem_or_eq_of_mem_set member with old | rfl
          · exact obeying one old
          · simpa using running.2 _ possible

/-- The invariant rule. A relation between the world, the ghost states of all requests and
the log holds in every reachable state if it holds at the start, survives arrivals, and
survives every call that the monitor allows in the caller's ghost state.
-/
theorem Reachable.invariant (reach : service.Reachable world pool)
    (faithful : service.Faithful monitor)
    (programs : ∀ request, (service.program request).Obeys monitor post (initial request))
    (invariant : World → List σ → List (Entry Op Ret) → Prop)
    (start : invariant world [] [])
    (arrive : ∀ world ghosts log request,
      invariant world ghosts log → invariant world (ghosts ++ [initial request]) log)
    (call : ∀ world ghosts log index state op reply after,
      ghosts[index]? = some state
      → monitor.allows state op
      → service.exec op world reply after
      → invariant world ghosts log
      → invariant after (ghosts.set index (monitor.next state op reply))
          (log ++ [⟨index, op, reply⟩]))
    : invariant pool.world (pool.ghosts monitor initial) pool.log := by
  induction reach with
  | refl => exact start
  | tail reached step ih =>
      cases step with
      | arrive request =>
          have kept := arrive _ _ _ request ih
          simpa [Pool.ghosts, Reachable.progress_arrive reached] using kept
      | perform performs =>
          obtain ⟨request, rest, before, after⟩ := performs.progress_eq
          have obeying := Reachable.obeys reached faithful programs _ (List.mem_of_getElem? before)
          have found : (Pool.ghosts _ monitor initial)[_]? = some _ :=
            (List.getElem?_map ..).trans (congrArg _ before)
          have kept := call _ _ _ _ _ _ _ _ found obeying.1 performs.executes ih
          rw [performs.log_eq]
          simpa only [Pool.ghosts, after, List.map_set, Monitor.track_append,
            Monitor.track_singleton] using kept

end Service

end Atomic

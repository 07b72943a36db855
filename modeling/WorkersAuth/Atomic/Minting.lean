import Mathlib.Data.List.Nodup
import WorkersAuth.Atomic.Trace

/-! Identifiers that are drawn once.
Some calls draw an identifier that was not in use before. Whatever the interleaving, two
draws never give the same one, so what is written only under an identifier that its own
writer drew is written by one thread.
-/

namespace Atomic

variable {Op : Type} {Ret : Op → Type} {World Request α κ : Type}

/-- The identifier a call draws, if it draws one, and the identifiers in use in a world. -/
structure Mint (Op : Type) (Ret : Op → Type) (World κ : Type) where
  draws : Call Op Ret → Option κ
  used : World → κ → Prop

/-- A draw gives an identifier not in use and takes it into use; none goes out of use. -/
structure Mint.Fresh (mint : Mint Op Ret World κ) (exec : Semantics Op Ret World) : Prop where
  unused : ∀ op before reply after key,
    exec op before reply after → mint.draws ⟨op, reply⟩ = some key → ¬mint.used before key
  taken : ∀ op before reply after key,
    exec op before reply after → mint.draws ⟨op, reply⟩ = some key → mint.used after key
  kept : ∀ op before reply after key,
    exec op before reply after → mint.used before key → mint.used after key

namespace Service

variable {service : Service Op Ret World Request α} {world : World}
  {pool later : Pool Op Ret World Request α} {mint : Mint Op Ret World κ}

/-- All identifiers drawn so far are different and in use, by induction on the run. -/
theorem Reachable.draws_nodup (reach : service.Reachable world pool)
    (fresh : mint.Fresh service.exec)
    : (pool.log.filterMap (fun entry => mint.draws entry.call)).Nodup
      ∧ ∀ key ∈ pool.log.filterMap (fun entry => mint.draws entry.call),
          mint.used pool.world key := by
  induction reach with
  | refl => simp [Pool.start]
  | tail _ step ih =>
      obtain ⟨distinct, known⟩ := ih
      cases step with
      | arrive request => exact ⟨distinct, known⟩
      | @perform entry _ performs =>
          have executes := performs.executes
          have remains : ∀ key ∈ _, mint.used _ key :=
            fun key member => fresh.kept _ _ _ _ key executes (known key member)
          rw [performs.log_eq, List.filterMap_append]
          cases drawn : mint.draws entry.call with
          | none =>
              have nothing : [entry].filterMap (fun entry => mint.draws entry.call) = [] := by
                simp [drawn]
              rw [nothing, List.append_nil]
              exact ⟨distinct, remains⟩
          | some key =>
              have new : ¬mint.used _ key := fresh.unused _ _ _ _ key executes drawn
              have single : [entry].filterMap (fun entry => mint.draws entry.call) = [key] := by
                simp [drawn]
              rw [single]
              refine ⟨?_, ?_⟩
              · rw [← List.concat_eq_append]
                exact distinct.concat (fun member => new (known key member))
              · intro other member
                rcases List.mem_append.mp member with old | last
                · exact remains other old
                · cases List.mem_singleton.mp last
                  exact fresh.taken _ _ _ _ key executes drawn

/-- Two values that select the same element of a duplicate-free selection are equal, by
induction on the list.
-/
theorem eq_of_filterMap_nodup {δ : Type} {list : List δ} {select : δ → Option κ} {first second : δ}
    {key : κ} (distinct : (list.filterMap select).Nodup) (first_in : first ∈ list)
    (second_in : second ∈ list) (first_key : select first = some key)
    (second_key : select second = some key)
    : first = second := by
  induction list with
  | nil => exact absurd first_in List.not_mem_nil
  | cons head rest ih =>
      have tail : (rest.filterMap select).Nodup :=
        distinct.sublist ((List.sublist_cons_self head rest).filterMap select)
      have once : ∀ other ∈ rest, select other = some key → select head ≠ some key := by
        intro other member other_key head_key
        rw [List.filterMap_cons_some head_key, List.nodup_cons] at distinct
        exact distinct.1 (List.mem_filterMap.mpr ⟨other, member, other_key⟩)
      rcases List.mem_cons.mp first_in with rfl | first_rest
      · rcases List.mem_cons.mp second_in with rfl | second_rest
        · rfl
        · exact absurd first_key (once second second_rest second_key)
      · rcases List.mem_cons.mp second_in with rfl | second_rest
        · exact absurd second_key (once first first_rest first_key)
        · exact ih tail first_rest second_rest

/-- An identifier is drawn by one thread only. -/
theorem Reachable.drawn_once (reach : service.Reachable world pool)
    (fresh : mint.Fresh service.exec) {first second : Nat} {one other : Call Op Ret} {key : κ}
    (first_made : one ∈ pool.history first) (second_made : other ∈ pool.history second)
    (first_draws : mint.draws one = some key) (second_draws : mint.draws other = some key)
    : first = second := by
  have same := eq_of_filterMap_nodup (reach.draws_nodup fresh).1 (mem_history.mp first_made)
    (mem_history.mp second_made) first_draws second_draws
  exact congrArg Entry.thread same

/-- Once a thread that drew an identifier has answered, no call of a later run is made by a
thread that drew it.
-/
theorem Reachable.not_drawn_by_writer (reach : service.Reachable world pool)
    (fresh : mint.Fresh service.exec) {index : Nat} {request : Request} {answer : α}
    (answered : pool.Answered index request answer) {draw : Call Op Ret} {key : κ}
    (drew : draw ∈ pool.history index) (draws : mint.draws draw = some key)
    (run : service.Run pool later) {entry : Entry Op Ret} {following : Pool Op Ret World Request α}
    (performs : service.Performs later entry following) {other : Call Op Ret}
    (made : other ∈ later.history entry.thread)
    : mint.draws other ≠ some key := by
  intro again
  obtain ⟨still, _⟩ := answered_run run answered
  exact performs.thread_ne still
    ((reach.run run).drawn_once fresh made (mem_history_run run drew) again draws)

end Service

end Atomic

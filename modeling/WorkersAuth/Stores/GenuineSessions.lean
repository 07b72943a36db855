import WorkersAuth.Stores.Provenance
import WorkersAuth.Stores.Serving

/-! Session stores that serve what they were given.
Whom a session is for, its scope and its metadata come from the `create` that stored it and from nowhere
else. A handler that knows its session store only through its calls can rely on no more than this, and the
three stores give it.
-/

namespace WorkersAuth.Stores

open Atomic Tables

/-- What `get` answers is held, and what is held was held before or is being created. -/
structure Genuine {σ : Type} (sessions : Semantics SessionCall SessionCall.Reply σ)
    (holds : σ → SessionFacts → Prop)
    : Prop where
  get : ∀ sid before session after, sessions (.get sid) before (some session) after →
    holds before (Session.facts session)
  kept : ∀ op before reply after facts, sessions op before reply after → holds after facts →
    holds before facts ∨ ∃ input, op = .create input ∧ NewSession.facts input = facts

/-- The calls of a store, each served alone at some moment in some isolate. -/
def SessionStore.oneAtATime (store : SessionStore) (platform : Platform) (consistency : Consistency)
    : Semantics SessionCall SessionCall.Reply Storage :=
  fun call before reply after =>
    ∃ isolate time, store.sessions platform consistency isolate time call before reply after

/-- Something with these facts is stored, or was written to KV and may still be read. -/
def Storage.Holds (storage : Storage) (facts : SessionFacts) : Prop :=
  (∃ sidHash row, storage.rows.find sidHash = some row ∧ SessionRow.facts row = facts)
  ∨ (∃ sidHash pair, storage.records.current.find sidHash = some pair
      ∧ StoredSession.facts pair.value = facts)
  ∨ ∃ pair ∈ storage.records.written, StoredSession.facts pair.value = facts

variable {platform : Platform} {consistency : Consistency} {store : SessionStore} {time : Millis}
  {before after : Storage} {request : Request} {answer : Answer} {facts : SessionFacts}

/-- Nothing is held while nothing is stored. -/
theorem not_holds_empty (now : Millis) : ¬(Storage.empty now).Holds facts := by
  rintro (⟨_, _, stored, _⟩ | ⟨_, _, stored, _⟩ | ⟨_, written, _⟩)
  · simp [Storage.empty] at stored
  · simp [Storage.empty, KvSpace.empty] at stored
  · simp [Storage.empty, KvSpace.empty] at written

/-- A call of a store holds what was held before, and what a `create` is given; by cases on its effect. -/
theorem Effect.holds (effect : Effect platform store time before request answer after)
    (held : after.Holds facts)
    : before.Holds facts ∨ ∃ input, request = .create input ∧ NewSession.facts input = facts := by
  cases effect with
  | refused => exact .inl held
  | @createdRow input sid rows sql unused inserted =>
      rcases held with ⟨hash, row, stored, same⟩ | kv
      · dsimp only at stored
        rw [Table.find_insert inserted] at stored
        split at stored
        · cases stored
          exact .inr ⟨input, rfl, same⟩
        · exact .inl (.inl ⟨hash, row, stored, same⟩)
      · exact .inl (.inr kv)
  | @createdRecord input sid kvTime ttl usesKv unused forward =>
      rcases held with rows | ⟨hash, pair, stored, same⟩ | ⟨pair, written, same⟩
      · exact .inl (.inl rows)
      · dsimp only at stored
        rw [KvSpace.find_put] at stored
        split at stored
        · cases stored
          exact .inr ⟨input, rfl, same⟩
        · exact .inl (.inr (.inl ⟨hash, pair, stored, same⟩))
      · rcases List.mem_cons.mp written with rfl | old
        · exact .inr ⟨input, rfl, same⟩
        · exact .inl (.inr (.inr ⟨pair, old, same⟩))
  | touchedRow sql =>
      rcases held with ⟨hash, row, stored, same⟩ | kv
      · simp only [Table.find_updateWhere, Option.map_eq_some_iff] at stored
        obtain ⟨old, found, rfl⟩ := stored
        refine .inl (.inl ⟨hash, old, found, ?_⟩)
        split at same <;> exact same
      · exact .inl (.inr kv)
  | unmarked usesKv => exact .inl held
  | marked same early admitted forward => exact .inl held
  | quiet quiet wanes now =>
      rcases held with ⟨hash, row, stored, same⟩ | ⟨hash, pair, stored, same⟩ | ⟨pair, written, same⟩
      · exact .inl (.inl ⟨hash, row, wanes.rows _ _ stored, same⟩)
      · exact .inl (.inr (.inl ⟨hash, pair, wanes.record _ _ stored, same⟩))
      · exact .inl (.inr (.inr ⟨pair, wanes.recordsWritten ▸ written, same⟩))

/-- A session that is found is held. -/
theorem Found.holds {sid : String} {session : Session}
    (found : Found platform consistency store time before sid session)
    : before.Holds (Session.facts session) := by
  cases found with
  | row sql stored live unrevoked => exact .inl ⟨_, _, stored, rfl⟩
  | record usesKv forward read seenForward readSeen live unrevoked =>
      cases consistency with
      | strong =>
          obtain ⟨pair, stored, _, same⟩ := KvSpace.read_eq_some.mp (Eq.symm read)
          exact .inr (.inl ⟨_, pair, stored, same ▸ rfl⟩)
      | eventual =>
          rcases read with none | ⟨pair, written, _, same⟩
          · contradiction
          · cases same
            exact .inr (.inr ⟨pair, written, rfl⟩)

/-- The D1, the Postgres and the KV store serve what they were given. -/
theorem oneAtATime_genuine (store : SessionStore)
    : Genuine (store.oneAtATime platform consistency) Storage.Holds where
  get _ _ _ _ := by
    rintro ⟨isolate, time, serves⟩
    exact (get_found serves).holds
  kept op before reply after facts := by
    rintro ⟨isolate, time, serves⟩ held
    refine ((serves_effect serves).holds held).imp_right ?_
    rintro ⟨input, same, given⟩
    cases op <;> cases same
    exact ⟨input, rfl, given⟩

end WorkersAuth.Stores

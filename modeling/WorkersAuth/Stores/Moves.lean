import WorkersAuth.Atomic.Minting
import WorkersAuth.Stores.SessionStores

/-! What one operation can do to what is stored.
Each lemma traces a stored row, record or marker back through one operation: it was there
before, or the operation is the one that writes it. Facts about runs rest on these alone.
-/

namespace WorkersAuth.Stores

open Atomic Tables

variable {platform : Platform} {guarantees : Guarantees} {op : Op} {reply : op.Reply}
  {before after : Storage} {sidHash : String}

-----------------------------------------------------------------------------------------
-- One prefix of KV
-----------------------------------------------------------------------------------------

namespace KvSpace

variable {α : Type} {space : KvSpace α} {key sought : String} {pair : KvPair α}

@[simp] theorem find_put
    : (space.put pair).current.find sought
      = if sought = pair.key then some pair else space.current.find sought := by
  simp only [put, Table.find_upsert, Table.find_deleteWhere]
  split
  · next same =>
      cases found : space.current.find pair.key with
      | none => rfl
      | some stored => simp [Option.filter, Table.key_of_find found]
  · next different =>
      cases found : space.current.find sought with
      | none => rfl
      | some stored => simp [Option.filter, Table.key_of_find found, different]

@[simp] theorem find_delete
    : (space.delete key).current.find sought
      = if sought = key then none else space.current.find sought := by
  simp only [delete, Table.find_deleteWhere]
  cases found : space.current.find sought with
  | none => simp
  | some stored => simp [Option.filter, Table.key_of_find found]

/-- What can be read of a key is its current version, before it expires. -/
theorem read_eq_some {time : Millis} {value : α}
    : space.read key time = some value
      ↔ ∃ pair, space.current.find key = some pair ∧ time < pair.expiresAt ∧ pair.value = value := by
  simp only [read, Option.map_eq_some_iff, Option.filter_eq_some_iff, decide_eq_true_eq]
  exact exists_congr (fun pair => and_assoc)

end KvSpace

-----------------------------------------------------------------------------------------
-- Rows
-----------------------------------------------------------------------------------------

/-- How a row comes to be stored under a hash by one operation. -/
inductive RowMove (before : Storage) (sidHash : String) (row : SessionRow) : Op → Prop
  | kept {op : Op} (stored : before.rows.find sidHash = some row) : RowMove before sidHash row op
  | inserted (same : row.sidHash = sidHash) (free : before.rows.find sidHash = none)
    : RowMove before sidHash row (.statement (.insertRow row))
  | touched {old : SessionRow} {readAt idleExpiresAt : Millis} (stored : before.rows.find sidHash = some old)
    (live : old.expired readAt = false) (changed : row = old.touched readAt idleExpiresAt)
    : RowMove before sidHash row (.statement (.touchRow sidHash readAt idleExpiresAt))

/-- A deletion only removes rows. -/
theorem find_rows_delete {storage : Storage} {deletion : Deletion} {row : SessionRow}
    (stored : (storage.delete deletion).rows.find sidHash = some row)
    : storage.rows.find sidHash = some row := by
  cases deletion with
  | row removed =>
      simp only [Storage.delete, Table.find_deleteWhere] at stored
      exact (Option.filter_eq_some_iff.mp stored).1
  | record removed => exact stored
  | seen removed => exact stored

/-- A row stored after an operation was stored before, or is the operation's own; by cases on
the operation.
-/
theorem rowMove (executes : exec platform guarantees op before reply after) {row : SessionRow}
    (stored : after.rows.find sidHash = some row)
    : RowMove before sidHash row op := by
  cases op with
  | called => obtain ⟨_, rfl⟩ := executes; exact .kept stored
  | clock => obtain ⟨_, rfl⟩ := executes; exact .kept stored
  | listClock => obtain ⟨_, rfl⟩ := executes; exact .kept stored
  | randomToken => obtain ⟨_, rfl⟩ := executes; exact .kept stored
  | recordFirst => cases executes; exact .kept stored
  | kv call =>
      obtain ⟨time, _, rfl, _⟩ := executes
      cases call <;> exact .kept stored
  | statement query =>
      cases query with
      | insertRow added =>
          obtain ⟨rows, inserted, same⟩ := Option.map_eq_some_iff.mp executes
          cases same
          simp only [Table.find_insert inserted] at stored
          split at stored
          · next same =>
              cases stored
              subst same
              refine .inserted rfl ?_
              rw [← Option.not_isSome_iff_eq_none, ← Table.insert_eq_none_iff, inserted]
              simp
          · exact .kept stored
      | touchRow touched readAt idleExpiresAt =>
          cases executes
          simp only [Table.find_updateWhere, Option.map_eq_some_iff] at stored
          obtain ⟨old, found, changed⟩ := stored
          split at changed
          · next applies =>
              simp only [Bool.and_eq_true, decide_eq_true_eq] at applies
              obtain ⟨⟨same, idle⟩, absolute⟩ := applies
              cases (Table.key_of_find found).symm.trans same
              refine .touched found ?_ changed.symm
              simp [SessionRow.expired, idle, absolute]
          · cases changed
            exact .kept found
      | delete deletion => cases executes; exact .kept (find_rows_delete stored)
      | land deletion =>
          simp only [exec, Statement.run] at executes
          split at executes
          · cases executes; exact .kept (find_rows_delete stored)
          · contradiction
      | deleteUserRows userId =>
          cases executes
          simp only [Storage.deleteRows, Table.find_deleteWhere] at stored
          exact .kept (Option.filter_eq_some_iff.mp stored).1
      | deleteExpiredRows cutoff =>
          cases executes
          simp only [Table.find_deleteWhere] at stored
          exact .kept (Option.filter_eq_some_iff.mp (Option.filter_eq_some_iff.mp stored).1).1
      | deleteAbsoluteRows cutoff =>
          cases executes
          simp only [Table.find_deleteWhere] at stored
          exact .kept (Option.filter_eq_some_iff.mp stored).1
      | deleteIdleRows cutoff =>
          cases executes
          simp only [Table.find_deleteWhere] at stored
          exact .kept (Option.filter_eq_some_iff.mp stored).1
      | _ => cases executes; exact .kept stored

-----------------------------------------------------------------------------------------
-- Records and markers
-----------------------------------------------------------------------------------------

/-- What a statement leaves alone: the clocks, the ids drawn and, unless it is a deletion, KV. -/
structure Framed (before after : Storage) : Prop where
  now : after.now = before.now
  kvNow : after.kvNow = before.kvNow
  drawn : after.drawn = before.drawn
  kv : ∃ deletion, after.records = (before.delete deletion).records
    ∧ after.seen = (before.delete deletion).seen

/-- A deletion is framed so. -/
theorem framed_delete (storage : Storage) (deletion : Deletion)
    : Framed storage (storage.delete deletion) := by
  cases deletion with
  | row sidHash => exact ⟨rfl, rfl, rfl, .row sidHash, rfl, rfl⟩
  | record sidHash => exact ⟨rfl, rfl, rfl, .record sidHash, rfl, rfl⟩
  | seen sidHash => exact ⟨rfl, rfl, rfl, .seen sidHash, rfl, rfl⟩

/-- Every statement is, by cases on the statement. -/
theorem Statement.framed {query : Statement} {reply : query.Reply}
    (ran : query.run before = some (reply, after))
    : Framed before after := by
  cases query with
  | insertRow row =>
      obtain ⟨rows, _, same⟩ := Option.map_eq_some_iff.mp ran
      cases same
      exact ⟨rfl, rfl, rfl, .row "", rfl, rfl⟩
  | delete deletion =>
      cases ran
      exact framed_delete before deletion
  | land deletion =>
      simp only [Statement.run] at ran
      split at ran
      · cases ran
        have framed := framed_delete before deletion
        exact ⟨framed.now, framed.kvNow, framed.drawn, framed.kv⟩
      · contradiction
  | _ => cases ran; exact ⟨rfl, rfl, rfl, .row "", rfl, rfl⟩

/-- A deletion only removes records and markers. -/
theorem find_kv_delete {storage : Storage} {deletion : Deletion}
    : (∀ pair, (storage.delete deletion).records.current.find sidHash = some pair
        → storage.records.current.find sidHash = some pair)
      ∧ ∀ pair, (storage.delete deletion).seen.current.find sidHash = some pair
        → storage.seen.current.find sidHash = some pair := by
  cases deletion with
  | row removed => exact ⟨fun _ stored => stored, fun _ stored => stored⟩
  | record removed =>
      refine ⟨fun pair stored => ?_, fun _ stored => stored⟩
      simp only [Storage.delete, KvSpace.find_delete] at stored
      split at stored
      · contradiction
      · exact stored
  | seen removed =>
      refine ⟨fun _ stored => stored, fun pair stored => ?_⟩
      simp only [Storage.delete, KvSpace.find_delete] at stored
      split at stored
      · contradiction
      · exact stored

/-- KV's own time moves forward. -/
theorem kvNow_le (executes : exec platform guarantees op before reply after)
    : before.kvNow ≤ after.kvNow := by
  cases op with
  | called => obtain ⟨_, rfl⟩ := executes; rfl
  | clock => obtain ⟨_, rfl⟩ := executes; rfl
  | listClock => obtain ⟨_, rfl⟩ := executes; rfl
  | randomToken => obtain ⟨_, rfl⟩ := executes; rfl
  | recordFirst => cases executes; rfl
  | statement query => exact (Statement.framed executes).kvNow.ge
  | kv call =>
      obtain ⟨time, forward, rfl, _⟩ := executes
      cases call <;> exact forward

/-- Where clocks never go back, the last reading moves forward. -/
theorem now_le (forward : ∀ first second, guarantees.clock first second → first ≤ second)
    (executes : exec platform guarantees op before reply after)
    : before.now ≤ after.now := by
  cases op with
  | called => obtain ⟨reads, rfl⟩ := executes; exact forward _ _ reads
  | clock => obtain ⟨reads, rfl⟩ := executes; exact forward _ _ reads
  | listClock => obtain ⟨reads, rfl⟩ := executes; exact forward _ _ reads
  | randomToken => obtain ⟨_, rfl⟩ := executes; rfl
  | recordFirst => cases executes; rfl
  | statement query => exact (Statement.framed executes).now.ge
  | kv call =>
      obtain ⟨time, _, rfl, _⟩ := executes
      cases call <;> rfl

/-- A record stored after an operation was stored before, or is the one the operation puts. -/
theorem recordMove (executes : exec platform guarantees op before reply after)
    {pair : KvPair StoredSession} (stored : after.records.current.find sidHash = some pair)
    : before.records.current.find sidHash = some pair
      ∨ ∃ record expirationTtl, op = .kv (.putRecord sidHash record expirationTtl)
          ∧ pair = ⟨sidHash, record, after.kvNow + expirationTtl * sec⟩ := by
  cases op with
  | called => obtain ⟨_, rfl⟩ := executes; exact .inl stored
  | clock => obtain ⟨_, rfl⟩ := executes; exact .inl stored
  | listClock => obtain ⟨_, rfl⟩ := executes; exact .inl stored
  | randomToken => obtain ⟨_, rfl⟩ := executes; exact .inl stored
  | recordFirst => cases executes; exact .inl stored
  | statement query =>
      obtain ⟨deletion, records, _⟩ := (Statement.framed executes).kv
      exact .inl (find_kv_delete.1 pair (records ▸ stored))
  | kv call =>
      obtain ⟨time, _, rfl, _⟩ := executes
      cases call with
      | putRecord key record expirationTtl =>
          simp only [KvCall.run, KvSpace.find_put] at stored
          split at stored
          · next same =>
              cases stored
              subst same
              exact .inr ⟨record, expirationTtl, rfl, rfl⟩
          · exact .inl stored
      | _ => exact .inl stored

/-- A marker stored after an operation was stored before, or is the one the operation puts. -/
theorem seenMove (executes : exec platform guarantees op before reply after)
    {pair : KvPair SeenMarker} (stored : after.seen.current.find sidHash = some pair)
    : before.seen.current.find sidHash = some pair
      ∨ ∃ marker expirationTtl, op = .kv (.putSeen sidHash marker expirationTtl)
          ∧ pair = ⟨sidHash, marker, after.kvNow + expirationTtl * sec⟩ := by
  cases op with
  | called => obtain ⟨_, rfl⟩ := executes; exact .inl stored
  | clock => obtain ⟨_, rfl⟩ := executes; exact .inl stored
  | listClock => obtain ⟨_, rfl⟩ := executes; exact .inl stored
  | randomToken => obtain ⟨_, rfl⟩ := executes; exact .inl stored
  | recordFirst => cases executes; exact .inl stored
  | statement query =>
      obtain ⟨deletion, _, seen⟩ := (Statement.framed executes).kv
      exact .inl (find_kv_delete.2 pair (seen ▸ stored))
  | kv call =>
      obtain ⟨time, _, rfl, _⟩ := executes
      cases call with
      | putSeen key marker expirationTtl =>
          simp only [KvCall.run, KvSpace.find_put] at stored
          split at stored
          · next same =>
              cases stored
              subst same
              exact .inr ⟨marker, expirationTtl, rfl, rfl⟩
          · exact .inl stored
      | _ => exact .inl stored

-----------------------------------------------------------------------------------------
-- Session ids
-----------------------------------------------------------------------------------------

/-- The ids the stores draw are those of `randomToken`, by their hashes. -/
def sessionIds (platform : Platform) : Mint Op Op.Reply Storage String where
  draws
    | ⟨.randomToken, sid⟩ => some (sha256Hex platform sid)
    | _ => none
  used storage sidHash := sidHash ∈ storage.drawn

/-- The hash under which an operation stores a session that was not there. -/
def Op.stores : Op → Option String
  | .statement (.insertRow row) => some row.sidHash
  | .kv (.putRecord sidHash _ _) => some sidHash
  | _ => none

/-- Only `randomToken` draws an id. -/
theorem drawn_eq (executes : exec platform guarantees op before reply after)
    : after.drawn = before.drawn
      ∨ ∃ sid, (⟨op, reply⟩ : Call Op Op.Reply) = ⟨.randomToken, sid⟩
          ∧ before.Unused (sha256Hex platform sid)
          ∧ after.drawn = sha256Hex platform sid :: before.drawn := by
  cases op with
  | called => obtain ⟨_, rfl⟩ := executes; exact .inl rfl
  | clock => obtain ⟨_, rfl⟩ := executes; exact .inl rfl
  | listClock => obtain ⟨_, rfl⟩ := executes; exact .inl rfl
  | randomToken => obtain ⟨new, rfl⟩ := executes; exact .inr ⟨reply, rfl, new, rfl⟩
  | recordFirst => cases executes; exact .inl rfl
  | statement query => exact .inl (Statement.framed executes).drawn
  | kv call =>
      obtain ⟨time, _, rfl, _⟩ := executes
      cases call <;> exact .inl rfl

/-- Session ids are drawn once. -/
theorem sessionIds_fresh : (sessionIds platform).Fresh (exec platform guarantees) where
  unused op before reply after key executes draws used := by
    rcases drawn_eq executes with _ | ⟨sid, same, new, _⟩
    · cases op <;> simp_all [sessionIds, exec]
    · rw [same] at draws
      cases draws
      exact new.1 used
  taken op before reply after key executes draws := by
    rcases drawn_eq executes with _ | ⟨sid, same, _, drawn⟩
    · cases op <;> simp_all [sessionIds, exec]
    · rw [same] at draws
      cases draws
      simp [sessionIds, drawn]
  kept op before reply after key executes used := by
    rcases drawn_eq executes with same | ⟨sid, _, _, drawn⟩
    · simpa only [sessionIds, same] using used
    · simpa only [sessionIds, drawn] using List.mem_cons_of_mem _ used

end WorkersAuth.Stores

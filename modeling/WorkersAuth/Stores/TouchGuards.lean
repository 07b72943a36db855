import Mathlib.Tactic.Linarith
import WorkersAuth.Stores.IdleWindow

/-! The touch guards of the isolates.
Only a `touch` of the KV store asks the guard of its isolate, and the guard remembers when it
let a write through. So no guard remembers a time that has not come, and a guard that refuses a
write has let one through a short while before.
-/

namespace WorkersAuth.Stores

open Atomic Tables Program

variable {platform : Platform} {consistency : Consistency} {store : SessionStore} {time : Millis}
  {before after : Storage} {request : Request} {answer : Answer} {sid sidHash userId : String}

-----------------------------------------------------------------------------------------
-- What a guard lets through
-----------------------------------------------------------------------------------------

/-- A guard that refuses a write has let one through within the throttle, and stays as it is. -/
theorem TouchGuard.allows_eq_false {touchGuard : TouchGuard} {readAt throttleMs : Millis}
    (refused : (touchGuard.allows sidHash readAt throttleMs).1 = false)
    : (∃ entry ∈ touchGuard, entry.1 = sidHash ∧ readAt - entry.2 < throttleMs)
      ∧ (touchGuard.allows sidHash readAt throttleMs).2 = touchGuard := by
  by_cases recent : ((touchGuard.find? (fun entry => entry.1 = sidHash)).map Prod.snd).any
      (fun lastWrite => readAt - lastWrite < throttleMs) = true
  · obtain ⟨lastWrite, remembered, near⟩ := (Option.any_eq_true ..).mp recent
    obtain ⟨entry, found, rfl⟩ := Option.map_eq_some_iff.mp remembered
    have same : entry.1 = sidHash := by simpa using List.find?_some found
    refine ⟨⟨entry, List.mem_of_find?_eq_some found, same, of_decide_eq_true near⟩, ?_⟩
    exact congrArg Prod.snd (if_pos recent)
  · have allowed : (touchGuard.allows sidHash readAt throttleMs).1 = true :=
      congrArg Prod.fst (if_neg recent)
    rw [allowed] at refused
    contradiction

/-- What a guard remembers it has remembered before, or it is the write it is asked about. -/
theorem TouchGuard.mem_allows {touchGuard : TouchGuard} {readAt throttleMs : Millis}
    {entry : String × Millis} (member : entry ∈ (touchGuard.allows sidHash readAt throttleMs).2)
    : entry ∈ touchGuard ∨ entry = (sidHash, readAt) := by
  simp only [allows] at member
  by_cases recent : ((touchGuard.find? (fun entry => entry.1 = sidHash)).map Prod.snd).any
      (fun lastWrite => readAt - lastWrite < throttleMs) = true
  · rw [if_pos recent] at member
    exact .inl member
  · rw [if_neg recent] at member
    rcases List.mem_cons.mp member with rfl | old
    · exact .inr rfl
    · have kept := (List.mem_filter.mp old).1
      split at kept
      · contradiction
      · exact .inl kept

-----------------------------------------------------------------------------------------
-- Who asks a guard
-----------------------------------------------------------------------------------------

/-- The operation asks a guard. -/
@[simp] def Op.asksGuard : Op → Bool
  | .statement (.admitTouch ..) => true
  | _ => false

/-- A program that asks no guard. -/
abbrev Unguarded {α : Type} (task : Task α) : Prop := task.Within (fun op => op.asksGuard = false)

/-- An operation that asks no guard leaves all guards alone. -/
theorem guards_eq {guarantees : Guarantees} {op : Op} {reply : op.Reply}
    (unguarded : op.asksGuard = false)
    (executes : exec platform guarantees op before reply after)
    : after.guards = before.guards := by
  cases op with
  | called => exact executes.2 ▸ rfl
  | clock => exact executes.2 ▸ rfl
  | listClock => exact executes.2 ▸ rfl
  | randomToken => exact executes.2 ▸ rfl
  | recordFirst => exact executes ▸ rfl
  | kv call =>
      obtain ⟨kvTime, _, rfl, _⟩ := executes
      cases call <;> rfl
  | statement query =>
      cases query with
      | insertRow row =>
          obtain ⟨rows, _, same⟩ := Option.map_eq_some_iff.mp executes
          exact (Prod.mk.inj same).2 ▸ rfl
      | delete deletion => cases deletion <;> exact (Prod.mk.inj (Option.some.inj executes)).2 ▸ rfl
      | land deletion =>
          simp only [exec, Statement.run, Option.ite_none_right_eq_some] at executes
          obtain ⟨_, ran⟩ := executes
          cases deletion <;> exact (Prod.mk.inj (Option.some.inj ran)).2 ▸ rfl
      | admitTouch isolate key readAt throttleMs => contradiction
      | _ => exact (Prod.mk.inj (Option.some.inj executes)).2 ▸ rfl

theorem unguarded_checkRevoked {revocation : Option RevocationList} {createdAt : Millis}
    : Unguarded (checkRevoked revocation sidHash userId createdAt) := by
  cases revocation <;> simp [checkRevoked, revocationList.isRevoked]

theorem unguarded_settle {executionCtx : Bool} {deletion : Deletion}
    : Unguarded (settle executionCtx deletion) := by
  cases executionCtx <;> simp [settle]

theorem unguarded_forget {executionCtx : Bool}
    : Unguarded (kvSessionStore.forget executionCtx sidHash) := by
  refine .perform rfl (fun first => ?_)
  cases first <;> exact unguarded_settle.bind (fun _ => unguarded_settle)

theorem unguarded_create {input : NewSession} : Unguarded (store.create platform input) := by
  have sql : Unguarded (sqlSessionStore.create platform input) := by
    unfold sqlSessionStore.create
    split <;> simp
  cases store with
  | d1 options => exact sql
  | pg options => exact sql
  | kv options =>
      simp only [SessionStore.create, kvSessionStore.create]
      split <;> simp

theorem unguarded_get : Unguarded (store.get platform sid) := by
  have sql (revocation : Option RevocationList) (executionCtx : Bool)
      : Unguarded (sqlSessionStore.get platform revocation executionCtx sid) := by
    refine .perform rfl (fun found => ?_)
    cases found with
    | none => trivial
    | some row =>
        refine unguarded_checkRevoked.bind (fun revoked => ?_)
        cases revoked with
        | true => trivial
        | false =>
            refine .perform rfl (fun readAt => ?_)
            cases row.expired readAt with
            | true => exact unguarded_settle.bind (fun _ => trivial)
            | false => trivial
  cases store with
  | d1 options => exact sql _ _
  | pg options => exact sql _ _
  | kv options =>
      refine Within.bind ?_ (fun read => ?_)
      · refine .perform rfl (fun first => ?_)
        cases first <;> simp
      obtain ⟨found, seen⟩ := read
      cases found with
      | none => trivial
      | some record =>
          dsimp only
          split
          · trivial
          refine .perform rfl (fun readAt => ?_)
          cases record.expired seen readAt with
          | true => exact unguarded_forget.bind (fun _ => trivial)
          | false =>
              refine unguarded_checkRevoked.bind (fun revoked => ?_)
              cases revoked <;> trivial

theorem unguarded_revoke : Unguarded (store.revoke platform sid) := by
  have sql (revocation : Option RevocationList)
      : Unguarded (sqlSessionStore.revoke platform revocation sid) := by
    refine Within.bind ?_ (fun _ => within_perform _ _ |>.mpr rfl)
    cases revocation with
    | none => trivial
    | some list =>
        refine .perform rfl (fun found => ?_)
        cases found with
        | none => trivial
        | some row => simp [revocationList.revoke]
  cases store with
  | d1 options => exact sql _
  | pg options => exact sql _
  | kv options =>
      refine .perform rfl (fun record => ?_)
      refine Within.bind ?_ (fun _ => unguarded_forget)
      unfold kvSessionStore.tombstone
      cases options.revocation with
      | none => trivial
      | some list => cases record <;> simp [kvSessionStore.tombstoneExpiry, revocationList.revoke]

theorem unguarded_revokeAllForUser : Unguarded (store.revokeAllForUser userId) := by
  have sql (revocation : Option RevocationList)
      : Unguarded (sqlSessionStore.revokeAllForUser revocation userId) := by
    refine Within.bind ?_ (fun _ => within_perform _ _ |>.mpr rfl)
    cases revocation with
    | none => trivial
    | some list => simp [sqlSessionStore.markUser, revocationList.revokeUser]
  cases store with
  | d1 options => exact sql _
  | pg options => exact sql _
  | kv options =>
      simp only [SessionStore.revokeAllForUser, kvSessionStore.revokeAllForUser]
      cases options.revocation with
      | none => trivial
      | some list => simp [revocationList.revokeUser]

/-- Every request but a touch on KV asks no guard. -/
theorem unguarded_answer (free : store.usesKv = false ∨ request.touchesNone = true)
    : Unguarded (store.answer platform request) := by
  cases request with
  | create input => exact unguarded_create.bind (fun _ => trivial)
  | get sid => exact unguarded_get.bind (fun _ => trivial)
  | revoke sid => exact unguarded_revoke.bind (fun _ => trivial)
  | revokeAllForUser userId => exact unguarded_revokeAllForUser.bind (fun _ => trivial)
  | land deletion => exact .perform rfl (fun _ => trivial)
  | cleanup cutoff =>
      refine Within.bind ?_ (fun _ => trivial)
      cases store with
      | kv options => trivial
      | _ =>
          refine Within.bind ?_ (fun _ => by simp)
          cases cutoff <;> simp [cutoffOr]
  | touch isolate sid idleExpiresAt =>
      refine Within.bind ?_ (fun _ => trivial)
      cases store with
      | kv options => simp [SessionStore.usesKv, Request.touchesNone] at free
      | _ => exact .perform rfl (fun _ => (within_perform _ _).mpr rfl)

-----------------------------------------------------------------------------------------
-- Guards remember the past
-----------------------------------------------------------------------------------------

/-- A guard that is asked remembers at most the write it is asked about besides. -/
theorem mem_guards_admitTouch {guarantees : Guarantees} {where_ isolate : Nat}
    {readAt throttleMs : Millis} {admitted : Bool} {entry : String × Millis}
    (executes : exec platform guarantees (.statement (.admitTouch where_ sidHash readAt throttleMs))
      before admitted after)
    (member : entry ∈ after.guards isolate)
    : entry ∈ before.guards isolate ∨ entry = (sidHash, readAt) := by
  simp only [exec, Statement.run, Option.some.injEq, Prod.mk.injEq] at executes
  obtain ⟨_, rfl⟩ := executes
  dsimp only at member
  split at member
  · next same =>
      subst same
      exact TouchGuard.mem_allows member
  · exact .inl member

/-- What a guard remembers after a call it has remembered before, or it is of the call's time. -/
theorem mem_guards_served
    (serves : Serves platform consistency time (store.call platform request) before answer after)
    {isolate : Nat} {entry : String × Millis} (member : entry ∈ after.guards isolate)
    : entry ∈ before.guards isolate ∨ entry.2 = time := by
  obtain ⟨read, middle, ⟨reads, rfl⟩, run⟩ := evaluates_call.mp serves.2
  cases (reads : read = time)
  obtain ⟨calls, leads, executes⟩ := run.trace
  by_cases free : store.usesKv = false ∨ request.touchesNone = true
  · have made := (unguarded_answer free).made leads
    have same : after.guards = before.guards :=
      executes.keeps (fun storage => storage.guards = before.guards)
        (fun call member _ _ taken kept => (guards_eq (made call member) taken).trans kept) rfl
    exact .inl (same ▸ member)
  cases store with
  | d1 options => exact absurd (.inl rfl) free
  | pg options => exact absurd (.inl rfl) free
  | kv options =>
      cases request with
      | touch where_ sid idleExpiresAt =>
          cases kvSessionStore.touch_leads (touch_answer leads) with
          | late late =>
              simp only [Sequence.cons_iff, Sequence.nil_iff, Made.clock] at executes
              obtain ⟨_, ⟨_, rfl⟩, rfl⟩ := executes
              exact .inl member
          | throttled early =>
              simp only [Sequence.cons_iff, Sequence.nil_iff, Made.clock, Made.did] at executes
              obtain ⟨_, ⟨readAt, rfl⟩, _, asks, rfl⟩ := executes
              rcases mem_guards_admitTouch asks member with old | rfl
              · exact .inl old
              · exact .inr readAt
          | written early =>
              simp only [Sequence.cons_iff, Sequence.nil_iff, Made.clock, Made.did] at executes
              obtain ⟨_, ⟨readAt, rfl⟩, _, asks, _, ⟨_, _, rfl, _⟩, rfl⟩ := executes
              rcases mem_guards_admitTouch asks member with old | rfl
              · exact .inl old
              · exact .inr readAt
      | _ => exact absurd (.inr rfl) free

/-- No guard remembers a later time. -/
def GuardsPast (time : Millis) (storage : Storage) : Prop :=
  ∀ isolate, ∀ entry ∈ storage.guards isolate, entry.2 ≤ time

/-- The guards are empty at first. -/
theorem guardsPast_empty (now : Millis) : GuardsPast time (.empty now) := by
  intro isolate entry member
  contradiction

/-- A call adds nothing later than its own time. -/
theorem guardsPast_served
    (serves : Serves platform consistency time (store.call platform request) before answer after)
    (past : GuardsPast time before)
    : GuardsPast time after := by
  intro isolate entry member
  rcases mem_guards_served serves member with old | new
  · exact past isolate entry old
  · exact new.le

/-- Nor does a handler, by its calls; and it is over at its time. -/
theorem guardsPast_handled {α : Type} {handler : Handler α} {answer : α} {isolate : Nat}
    {before after : World Storage}
    (run : Evaluates (store.handles platform consistency isolate time) handler before answer after)
    (past : GuardsPast time before.sessions) (now : before.sessions.now = time)
    : GuardsPast time after.sessions ∧ after.sessions.now = time := by
  have calls (op : WorkersAuth.Op) (start : World Storage) (reply : op.Reply) (finish : World Storage)
      (taken : store.handles platform consistency isolate time op start reply finish)
      (kept : GuardsPast time start.sessions ∧ start.sessions.now = time)
      : GuardsPast time finish.sessions ∧ finish.sessions.now = time := by
    cases op with
    | store call => exact taken.1.2 ▸ kept
    | host call => exact taken.1.2 ▸ kept
    | session call => exact ⟨guardsPast_served taken.1.1 kept.1, (serves_effect taken.1.1).now⟩
  exact run.preserves (fun _ _ => False.elim) calls ⟨past, now⟩

/-- Nor does a visit. -/
theorem guardsPast_visit {visit : Visit} (step : store.Visits platform consistency before visit after)
    (past : GuardsPast visit.time before)
    : GuardsPast visit.time after ∧ after.now = visit.time := by
  obtain ⟨time, isolate, work⟩ := visit
  obtain ⟨forward, db, changed, served⟩ := step
  cases work with
  | mint config req user options result => exact guardsPast_handled served past rfl
  | request config optional req outcome => exact guardsPast_handled served past rfl
  | upkeep request answer => exact ⟨guardsPast_served served.2 past, (serves_effect served.2).now⟩

end WorkersAuth.Stores

import WorkersAuth.DeviceAuth.Deployment
import WorkersAuth.DeviceAuth.Devices
import WorkersAuth.Sessions

/-! A dead device stays dead, and its sessions with it.
Missing, revoked and expired are one absorbing state of a device as long as the clock does not
run backwards and ids are not used twice. Both session readers look at the device after
they have the session, so neither serves a session of a device that was dead before.
-/

namespace WorkersAuth

open Atomic DeviceAuth

-----------------------------------------------------------------------------------------
-- The store over time
-----------------------------------------------------------------------------------------

/-- The store at a moment: the clock, the tables, and the device ids used so far. -/
structure Moment where
  now : Millis
  db : Database
  created : List String

/-- A store on which no device was ever registered. -/
structure Moment.Fresh (moment : Moment) : Prop where
  devices : moment.db.devices.rows = []
  created : moment.created = []

/-- What the callers keep to: a device id is new and its idle expiry is within the absolute
one, and a device is touched at the time it is.
-/
def StoreCall.Timely (created : List String) (now : Millis) : StoreCall → Prop
  | .createDevice record =>
      record.deviceId ∉ created ∧ record.idleExpiresAt ≤ record.absoluteExpiresAt
  | .touchDevice _ moment _ => moment = now
  | _ => True

/-- The device ids a call uses up. -/
def StoreCall.creates : StoreCall → List String
  | .createDevice record => [record.deviceId]
  | _ => []

/-- Time passes, and with it one call of the store, a cleanup, or nothing. -/
inductive StoreStep (before : Moment) : Moment → Prop
  | call {call : StoreCall} {reply : call.Reply} {db : Database} {now : Millis}
    (later : before.now ≤ now) (timely : call.Timely before.created now)
    (ran : call.run before.db = some (reply, db))
    : StoreStep before ⟨now, db, call.creates ++ before.created⟩
  | cleanup {now at_ rateLimitHorizonMs : Millis} (later : before.now ≤ now)
    : StoreStep before ⟨now, (before.db.cleanup at_ rateLimitHorizonMs).2, before.created⟩
  | wait {now : Millis} (later : before.now ≤ now)
    : StoreStep before ⟨now, before.db, before.created⟩

/-- Any number of operations with non-decreasing clock values. -/
abbrev StoreRun : Moment → Moment → Prop := Relation.ReflTransGen StoreStep

/-- The device is missing, revoked, or at or past its idle or absolute expiry. -/
def DeviceDead (moment : Moment) (deviceId : String) : Prop :=
  ∀ row ∈ moment.db.devices.find deviceId,
    row.revokedAt.isSome ∨ row.idleExpiresAt ≤ moment.now ∨ row.absoluteExpiresAt ≤ moment.now

instance (moment : Moment) (deviceId : String) : Decidable (DeviceDead moment deviceId) :=
  inferInstanceAs (Decidable (∀ row ∈ moment.db.devices.find deviceId, _))

/-- Stored devices have used their ids, and none idles past its absolute expiry. -/
def Moment.Sound (moment : Moment) : Prop :=
  ∀ deviceId, ∀ row ∈ moment.db.devices.find deviceId,
    deviceId ∈ moment.created ∧ row.idleExpiresAt ≤ row.absoluteExpiresAt

variable {before after moment : Moment} {deviceId : String}

-----------------------------------------------------------------------------------------
-- One operation
-----------------------------------------------------------------------------------------

/-- A cleanup keeps the devices it does not delete as they are. -/
theorem cleanup_device {db : Database} {at_ rateLimitHorizonMs : Millis} {row : DeviceRecord}
    (found : (db.cleanup at_ rateLimitHorizonMs).2.devices.find deviceId = some row)
    : db.devices.find deviceId = some row := by
  simp only [Database.cleanup, Tables.Table.find_deleteWhere, Option.filter_eq_some_iff] at found
  exact found.1.1.1

theorem StoreStep.now_le (step : StoreStep before after) : before.now ≤ after.now := by
  cases step <;> assumption

theorem StoreStep.created_subset (step : StoreStep before after)
    : ∀ deviceId ∈ before.created, deviceId ∈ after.created := by
  cases step with
  | call => exact fun _ => List.mem_append_right _
  | cleanup | wait => exact fun _ => id

/-- A dead device stays dead for one more operation, by cases on what it does to the device. -/
theorem DeviceDead.step (dead : DeviceDead before deviceId) (created : deviceId ∈ before.created)
    (step : StoreStep before after)
    : DeviceDead after deviceId := by
  have later := step.now_le
  have still {row : DeviceRecord} (found : before.db.devices.find deviceId = some row)
      : row.revokedAt.isSome ∨ row.idleExpiresAt ≤ after.now ∨ row.absoluteExpiresAt ≤ after.now :=
    (dead row found).imp_right (.imp (·.trans later) (·.trans later))
  intro row found
  cases step with
  | wait => exact still found
  | cleanup => exact still (cleanup_device found)
  | @call call reply db now _ timely ran =>
      have moved := StoreCall.device_move ran deviceId
      generalize rows : before.db.devices.find deviceId = row_before at moved
      generalize rows' : db.devices.find deviceId = row_after at moved
      rw [Option.mem_def, rows'] at found
      subst found
      cases moved with
      | kept => exact still rows
      | created same => exact absurd (same ▸ created) timely.1
      | @touched old moment idle live =>
          obtain rfl : moment = now := timely
          simp only [Database.deviceLive, Bool.and_eq_true, Option.isNone_iff_eq_none,
            decide_eq_true_eq] at live
          obtain ⟨⟨unrevoked, idle⟩, absolute⟩ := live
          rcases still rows with revoked | expired | expired
          · simp [unrevoked] at revoked
          · exact absurd idle (not_lt.mpr expired)
          · exact absurd absolute (not_lt.mpr expired)
      | revoked => exact .inl rfl

/-- An operation keeps the stored devices sound. -/
theorem Moment.Sound.step (sound : before.Sound) (step : StoreStep before after)
    : after.Sound := by
  intro deviceId row found
  have kept {row : DeviceRecord} (found : before.db.devices.find deviceId = some row) :=
    (sound deviceId row found).imp_left (step.created_subset deviceId)
  cases step with
  | wait => exact kept found
  | cleanup => exact kept (cleanup_device found)
  | @call call reply db now _ timely ran =>
      have moved := StoreCall.device_move ran deviceId
      generalize rows : before.db.devices.find deviceId = row_before at moved
      generalize rows' : db.devices.find deviceId = row_after at moved
      rw [Option.mem_def, rows'] at found
      subst found
      cases moved with
      | kept => exact kept rows
      | created same => exact ⟨same ▸ List.mem_cons_self, timely.2⟩
      | touched => exact ⟨(kept rows).1, min_le_right _ _⟩
      | revoked => exact ⟨(kept rows).1, (kept rows).2⟩

/-- A device that has its id is not registered anew, and its absolute expiry stays. -/
theorem StoreStep.absolute_eq (step : StoreStep before after) (created : deviceId ∈ before.created)
    {row : DeviceRecord} (found : after.db.devices.find deviceId = some row)
    : ∃ earlier, before.db.devices.find deviceId = some earlier
      ∧ row.absoluteExpiresAt = earlier.absoluteExpiresAt := by
  cases step with
  | wait => exact ⟨row, found, rfl⟩
  | cleanup => exact ⟨row, cleanup_device found, rfl⟩
  | @call call reply db now _ timely ran =>
      have moved := StoreCall.device_move ran deviceId
      rw [show db.devices.find deviceId = some row from found] at moved
      generalize rows : before.db.devices.find deviceId = row_before at moved
      cases moved with
      | kept => exact ⟨row, rfl, rfl⟩
      | created same => exact absurd (same ▸ created) timely.1
      | touched | revoked => exact ⟨_, rfl, rfl⟩

-----------------------------------------------------------------------------------------
-- Any number of operations
-----------------------------------------------------------------------------------------

/-- Stored devices are sound in every run from a fresh store, by induction on the run. -/
theorem Moment.Fresh.sound (fresh : before.Fresh) (run : StoreRun before after) : after.Sound := by
  induction run with
  | refl =>
      intro deviceId row found
      rw [Tables.Table.find, fresh.devices] at found
      contradiction
  | tail _ step ih => exact ih.step step

/-- The device has its id and is dead. -/
structure Buried (moment : Moment) (deviceId : String) : Prop where
  created : deviceId ∈ moment.created
  dead : DeviceDead moment deviceId

theorem Buried.step (buried : Buried before deviceId) (step : StoreStep before after)
    : Buried after deviceId :=
  ⟨step.created_subset deviceId buried.created, buried.dead.step buried.created step⟩

/-- A dead device stays dead, by induction on the run. -/
theorem Buried.run (buried : Buried before deviceId) (run : StoreRun before after)
    : Buried after deviceId := by
  induction run with
  | refl => exact buried
  | tail _ step ih => exact ih.step step

/-- The absolute expiry of a device never changes, by induction on the run. -/
theorem StoreRun.absolute_eq (created : deviceId ∈ before.created) (run : StoreRun before after)
    {row : DeviceRecord} (found : after.db.devices.find deviceId = some row)
    : ∃ earlier, before.db.devices.find deviceId = some earlier
      ∧ row.absoluteExpiresAt = earlier.absoluteExpiresAt := by
  suffices deviceId ∈ after.created ∧ ∀ row, after.db.devices.find deviceId = some row
      → ∃ earlier, before.db.devices.find deviceId = some earlier
        ∧ row.absoluteExpiresAt = earlier.absoluteExpiresAt from this.2 row found
  clear found
  induction run with
  | refl => exact ⟨created, fun row found => ⟨row, found, rfl⟩⟩
  | tail _ step ih =>
      refine ⟨step.created_subset deviceId ih.1, fun row found => ?_⟩
      obtain ⟨middle, found, same⟩ := step.absolute_eq ih.1 found
      obtain ⟨earlier, found, same'⟩ := ih.2 middle found
      exact ⟨earlier, found, same.trans same'⟩

theorem StoreRun.now_le (run : StoreRun before after) : before.now ≤ after.now := by
  induction run with
  | refl => exact le_rfl
  | tail _ step ih => exact ih.trans step.now_le

-----------------------------------------------------------------------------------------
-- Readers of sessions, while the store goes on
-----------------------------------------------------------------------------------------

section Readers

variable {σ : Type} (platform : Platform) (sessions : Semantics SessionCall SessionCall.Reply σ)

/-- The calls of a reader over time: its clock is the store's, and no call takes time. -/
def timedExec : Semantics Op Op.Reply (Moment × σ)
  | .store call, before, reply, after =>
      call.Timely before.1.created before.1.now
      ∧ call.run before.1.db = some (reply, after.1.db)
      ∧ after.1.now = before.1.now
      ∧ after.1.created = call.creates ++ before.1.created
      ∧ after.2 = before.2
  | .session call, before, reply, after => sessions call before.2 reply after.2 ∧ after.1 = before.1
  | .host .clock, before, reply, after => reply = before.1.now ∧ after = before
  | .host call, before, reply, after => call.Answers platform reply ∧ after = before

/-- What the others do meanwhile: the store moves on, and the sessions change as they like. -/
def Meanwhile (before after : Moment × σ) : Prop := StoreStep before.1 after.1

/-- A reader started here never answers a session of the device. -/
def Withholds (read : Handler (Option Session)) (start : Moment × σ) (deviceId : String) : Prop :=
  ∀ answer finish,
    Program.EvaluatesUnder (timedExec platform sessions) Meanwhile read start answer finish
    → ∀ session ∈ answer, sessionBoundDeviceId session ≠ some deviceId

variable {platform sessions} {start middle finish : Moment × σ}

/-- Whatever the others do, time passes and a dead device stays dead. -/
theorem Meanwhile.run (others : Relation.ReflTransGen Meanwhile start middle)
    : StoreRun start.1 middle.1 :=
  others.lift Prod.fst (fun _ _ step => step)

/-- A dead device serves no session, now or later. -/
theorem not_deviceServes {db : Database} {now readAt : Millis} {created : List String}
    {session : Session} (dead : DeviceDead ⟨now, db, created⟩ deviceId) (later : now ≤ readAt)
    : deviceServes (db.findDevice deviceId) session readAt = false := by
  simp only [deviceServes]
  cases found : db.findDevice deviceId with
  | none => rfl
  | some row =>
      simp only [Bool.and_eq_false_iff, decide_eq_false_iff_not, not_lt]
      rcases dead row found with revoked | expired | expired
      · exact .inl (.inl (.inr (by simpa [Option.isSome_iff_ne_none] using revoked)))
      · exact .inl (.inr (expired.trans later))
      · exact .inr (expired.trans later)

/-- The device-bound store looks at the device after it has the session, and at the clock
after both: a device that was dead before is still dead then.
-/
theorem deviceBoundGet_withholds (buried : Buried start.1 deviceId) (sid : String)
    : Withholds platform sessions (deviceBoundGet sid) start deviceId := by
  intro answer finish run session answered bound
  simp only [deviceBoundGet, Program.perform_bind] at run
  cases run with
  | @call _ _ _ before reply after _ _ others executes rest =>
  cases reply with
  | none =>
      cases rest
      contradiction
  | some found =>
  simp only at rest
  split at rest
  · next unbound =>
      cases rest
      cases answered
      exact absurd (unbound.symm.trans bound) nofun
  next boundId bound' =>
  cases rest with
  | @call _ _ _ atFind device afterFind _ _ toFind finds rest =>
  cases rest with
  | @call _ _ _ atClock readAt afterClock _ _ toClock reads rest =>
  obtain ⟨_, found_eq, now_eq, _⟩ := finds
  obtain ⟨rfl, rfl⟩ := reads
  obtain ⟨rfl, sameDb⟩ := Prod.mk.inj (Option.some.inj found_eq)
  simp only at rest
  split at rest
  · next serves =>
      cases rest
      cases answered
      cases bound'.symm.trans bound
      have atFind_buried : Buried atFind.1 deviceId :=
        (executes.2 ▸ buried.run (Meanwhile.run others)).run (Meanwhile.run toFind)
      have later : atFind.1.now ≤ afterClock.1.now := now_eq ▸ (Meanwhile.run toClock).now_le
      rw [not_deviceServes atFind_buried.dead later] at serves
      contradiction
  · cases rest with
    | call _ _ rest =>
        cases rest
        contradiction

/-- No store object gets past the reader's own check with a session of a dead device: a
device-bound store withholds it, and any other is refused.
-/
theorem store_get_withholds (buried : Buried start.1 deviceId) (store : StoreObject) (sid : String)
    {answer : Option Session}
    (run : Program.EvaluatesUnder (timedExec platform sessions) Meanwhile (store.get sid) start
      answer finish)
    : ∀ session ∈ answer, deviceCheckApplied store session
      → sessionBoundDeviceId session ≠ some deviceId := by
  intro session answered checked
  cases store with
  | plain =>
      have unbound : sessionBoundDeviceId session = none := by
        simpa [deviceCheckApplied, isRegisteredDeviceBoundStore] using checked
      rw [unbound]
      nofun
  | deviceBound => exact deviceBoundGet_withholds buried sid _ _ run session answered

/-- A cookie never presents a session of a dead device. -/
theorem readCookieSession_withholds (buried : Buried start.1 deviceId) (config : AuthConfig)
    (req : HttpRequest) {answer : CookieSession}
    (run : Program.EvaluatesUnder (timedExec platform sessions) Meanwhile
      (readCookieSession config req) start answer finish)
    : ∀ session ∈ answer.session, sessionBoundDeviceId session ≠ some deviceId := by
  intro session answered
  unfold readCookieSession at run
  split at run
  · cases run
    contradiction
  · obtain ⟨found, middle, first, second⟩ := run.of_bind
    cases second
    simp only [Option.mem_def, Option.filter_eq_some_iff, Bool.and_eq_true] at answered
    exact store_get_withholds buried _ _ first session answered.1 answered.2.1.2

/-- A bearer token never presents a session of a dead device. -/
theorem readBearerSession_withholds (buried : Buried start.1 deviceId) (store : StoreObject)
    (req : HttpRequest)
    : Withholds platform sessions (readBearerSession store req) start deviceId := by
  intro answer finish run session answered
  unfold readBearerSession at run
  split at run
  · cases run
    contradiction
  · obtain ⟨found, middle, first, second⟩ := run.of_bind
    cases second
    simp only [Option.mem_def, Option.filter_eq_some_iff, Bool.and_eq_true] at answered
    exact store_get_withholds buried _ _ first session answered.1 answered.2.1.2

/-- A device that is dead at one moment of a run stays dead at every later one, with the
same absolute expiry and never an idle expiry past it; and from then on, over any session
store and whatever else happens meanwhile, no reader answers a session of it.
-/
theorem deadDevice_staysDead {first moment later : Moment} (fresh : first.Fresh)
    (reached : StoreRun first moment) (created : deviceId ∈ moment.created)
    (dead : DeviceDead moment deviceId) (run : StoreRun moment later)
    : DeviceDead later deviceId
      ∧ (∀ row ∈ later.db.devices.find deviceId,
          row.idleExpiresAt ≤ row.absoluteExpiresAt
          ∧ ∃ earlier ∈ moment.db.devices.find deviceId,
              row.absoluteExpiresAt = earlier.absoluteExpiresAt)
      ∧ ∀ atLater : σ,
          (∀ config req answer finish,
            Program.EvaluatesUnder (timedExec platform sessions) Meanwhile
              (readCookieSession config req) (later, atLater) answer finish
            → ∀ session ∈ answer.session, sessionBoundDeviceId session ≠ some deviceId)
          ∧ (∀ store req,
            Withholds platform sessions (readBearerSession store req) (later, atLater) deviceId)
          ∧ ∀ sid, Withholds platform sessions (deviceBoundGet sid) (later, atLater) deviceId := by
  have buried := Buried.run ⟨created, dead⟩ run
  refine ⟨buried.dead, fun row found => ⟨?_, run.absolute_eq created found⟩, fun atLater => ?_⟩
  · exact (fresh.sound (reached.trans run) deviceId row found).2
  · exact ⟨fun config req _ _ reads => readCookieSession_withholds buried config req reads,
      fun store req => readBearerSession_withholds buried store req,
      fun sid => deviceBoundGet_withholds buried sid⟩

end Readers

section Played

open Sample

/-- The sample device is registered, revoked, and presented again a second later. -/
theorem deadDevice_staysDead_played
    : ∃ first moment later : Moment, first.Fresh ∧ StoreRun first moment ∧ StoreRun moment later
        ∧ (moment.db.devices.find device.deviceId).isSome
        ∧ moment.now < later.now
        ∧ DeviceDead later device.deviceId
        ∧ ∀ sid atLater,
          Withholds Sample.platform memorySessions (deviceBoundGet sid) (later, atLater) device.deviceId := by
  let created : Database := { Database.empty with devices := ⟨[device], List.nodup_singleton _⟩ }
  let revoked : Database := (created.revokeDevice "user_42" device.deviceId 1000).2
  let first : Moment := ⟨0, .empty, []⟩
  let moment : Moment := ⟨1000, revoked, [device.deviceId]⟩
  let later : Moment := ⟨2000, (revoked.touchDevice device.deviceId 2000 3000).2, [device.deviceId]⟩
  have registers : StoreStep first ⟨0, created, [device.deviceId]⟩ :=
    @StoreStep.call first (.createDevice device) () created 0 le_rfl
      ⟨List.not_mem_nil, by decide⟩ rfl
  have revokes : StoreStep ⟨0, created, [device.deviceId]⟩ moment :=
    @StoreStep.call ⟨0, created, _⟩ (.revokeDevice "user_42" device.deviceId 1000) _ revoked 1000
      (by decide) trivial rfl
  have touches : StoreStep moment later :=
    @StoreStep.call moment (.touchDevice device.deviceId 2000 3000) _ later.db 2000 (by decide)
      rfl rfl
  have dead : DeviceDead moment device.deviceId := by decide +kernel
  have fresh : first.Fresh := ⟨rfl, rfl⟩
  have reached : StoreRun first moment := .tail (.single registers) revokes
  have stays := @deadDevice_staysDead device.deviceId _ Sample.platform memorySessions _ _ _ fresh
    reached (List.mem_singleton_self _) dead (.single touches)
  exact ⟨first, moment, later, fresh, reached, .single touches, by decide +kernel, by decide,
    stays.1, fun sid atLater => (stays.2.2 atLater).2.2 sid⟩

end Played

end WorkersAuth

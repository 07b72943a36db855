import WorkersAuth.Atomic.Trace
import WorkersAuth.Counters.Reservations
import WorkersAuth.Counters.Tally
import WorkersAuth.DeviceAuth.BucketIsolation
import WorkersAuth.DeviceAuth.FailureBudget

/-! How many codes can be guessed for one address.
A guess is a verification that compared a live code and was refused. Each is charged to the budget of
its address, or to that of a device that was presented for it; and an interval shorter than the failure
window meets two windows of each budget at most.
-/

namespace WorkersAuth.DeviceAuth

open Atomic Counters

variable {platform : Platform} {cfg : Config}

-----------------------------------------------------------------------------------------
-- Reservations in a log
-----------------------------------------------------------------------------------------

/-- A slot that was reserved: its bucket, when, and the start of its window. -/
def reservationOf (call : Call Op Op.Reply) : Option (String × Millis × Millis) :=
  match call with
  | ⟨.store (.reserveRateLimit bucket _ now _), some slot⟩ => some (bucket, now, slot.windowStart)
  | _ => none

/-- The reservations of a bucket, oldest first. -/
def reservationsIn (bucket : String) (log : List (Entry Op Op.Reply)) : List (Millis × Millis) :=
  log.filterMap (fun entry =>
    ((reservationOf entry.call).filter (fun slot => slot.1 = bucket)).map Prod.snd)

/-- The slots of each bucket are reserved at times that do not fall. -/
def Punctual (log : List (Entry Op Op.Reply)) : Prop :=
  log.Pairwise (fun earlier later =>
    ∀ first ∈ reservationOf earlier.call, ∀ second ∈ reservationOf later.call,
      first.1 = second.1 → first.2.1 ≤ second.2.1)

instance (log : List (Entry Op Op.Reply)) : Decidable (Punctual log) :=
  inferInstanceAs (Decidable (List.Pairwise _ _))

variable {log : List (Entry Op Op.Reply)} {bucket : String}

theorem reservationsIn_append (log : List (Entry Op Op.Reply)) (entry : Entry Op Op.Reply) (bucket : String)
    : reservationsIn bucket (log ++ [entry]) = reservationsIn bucket log
      ++ (((reservationOf entry.call).filter (fun slot => slot.1 = bucket)).map Prod.snd).toList := by
  rw [reservationsIn, List.filterMap_append]
  cases told : ((reservationOf entry.call).filter (fun slot => slot.1 = bucket)).map Prod.snd <;>
    simp [reservationsIn, told]

/-- A reservation in the log of its bucket, and the entry that made it. -/
theorem mem_reservationsIn {slot : Millis × Millis}
    : slot ∈ reservationsIn bucket log
      ↔ ∃ entry ∈ log, reservationOf entry.call = some (bucket, slot) := by
  simp only [reservationsIn, List.mem_filterMap, Option.map_eq_some_iff, Option.filter_eq_some_iff,
    decide_eq_true_eq]
  constructor
  · rintro ⟨entry, logged, ⟨_, _⟩, ⟨reserved, rfl⟩, rfl⟩
    exact ⟨entry, logged, reserved⟩
  · rintro ⟨entry, logged, reserved⟩
    exact ⟨entry, logged, _, ⟨reserved, rfl⟩, rfl⟩

/-- The budgets' windows are those of the reservations in the log. -/
def WindowsTold (cfg : Config) (db : Database) (log : List (Entry Op Op.Reply)) : Prop :=
  ∀ bucket, FailureBucket bucket →
    Tracks (cfg.failureWindowSec * sec) (reservationsIn bucket log) ((db.window bucket).map Window.start)

section Step

variable {db after : Database} {thread : Nat}

/-- A call that reserves no slot and moves no window. -/
theorem WindowsTold.quiet (told : WindowsTold cfg db log) {call : Call Op Op.Reply}
    (unreserved : reservationOf call = none)
    (same : ∀ bucket, FailureBucket bucket →
      (after.window bucket).map Window.start = (db.window bucket).map Window.start)
    : WindowsTold cfg after (log ++ [⟨thread, call⟩]) := by
  intro bucket failure
  rw [reservationsIn_append, unreserved, same bucket failure]
  simpa using told bucket failure

/-- A slot is reserved. -/
theorem WindowsTold.reserves (told : WindowsTold cfg db log) {now : Millis} {max : Nat}
    {reply : Option WindowCount}
    (punctual : Punctual
      (log ++ [⟨thread, .store (.reserveRateLimit bucket (cfg.failureWindowSec * sec) now max), reply⟩]))
    (ran : db.reserveRateLimit bucket (cfg.failureWindowSec * sec) now max = (reply, after))
    : WindowsTold cfg after
        (log ++ [⟨thread, .store (.reserveRateLimit bucket (cfg.failureWindowSec * sec) now max), reply⟩]) := by
  cases reply with
  | none =>
      exact told.quiet rfl (fun other _ => congrArg _ (reserveRateLimit_refused ran other))
  | some slot =>
      intro other failure
      by_cases same : bucket = other
      · subst same
        obtain ⟨reply_eq, after_eq⟩ := reserveRateLimit_eq db bucket (cfg.failureWindowSec * sec) now max
        rw [ran] at reply_eq after_eq
        obtain ⟨taken, granted, rfl⟩ := Option.map_eq_some_iff.mp reply_eq.symm
        have later : ∀ earlier ∈ reservationsIn bucket log, earlier.1 ≤ now := by
          intro earlier member
          obtain ⟨entry, logged, reserved⟩ := mem_reservationsIn.mp member
          exact (List.pairwise_append.mp punctual).2.2 entry logged _ (List.mem_singleton_self _)
            _ reserved _ rfl rfl
        rw [reservationsIn_append, after_eq, granted]
        simpa [reservationOf, Option.filter_some] using (told bucket failure).reserve later granted
      · have elsewhere : after.window other = db.window other :=
          StoreCall.window_eq (.reserveRateLimit bucket _ now max) (congrArg some ran)
            (by simpa [StoreCall.countedBucket] using same)
        rw [reservationsIn_append, elsewhere]
        simpa [reservationOf, Option.filter_some, same] using told other failure

/-- Every call that the protocol of slots allows, by cases on the call. -/
theorem WindowsTold.call {σ : Type} {sessions : Semantics SessionCall SessionCall.Reply σ}
    {world later : World σ} {use : SlotUse} {op : Op} {reply : op.Reply}
    (told : WindowsTold cfg world.db log) (allowed : (slotMonitor platform cfg).allows use op)
    (punctual : Punctual (log ++ [⟨thread, op, reply⟩]))
    (executes : exec platform sessions op world reply later)
    : WindowsTold cfg later.db (log ++ [⟨thread, op, reply⟩]) := by
  rcases op with call | call | call
  · have ran := executes.1
    have elsewhere {other : String} (apart : call.countedBucket ≠ some other)
        : (later.db.window other).map Window.start = (world.db.window other).map Window.start :=
      congrArg _ (call.window_eq ran apart)
    cases call with
    | reserveRateLimit counted windowMs now max =>
        obtain ⟨-, -, rfl, -⟩ := allowed
        exact told.reserves punctual (Option.some.inj ran)
    | refundRateLimit counted windowStart =>
        refine told.quiet rfl (fun other _ => ?_)
        by_cases same : counted = other
        · subst same
          rw [← show world.db.refundRateLimit counted windowStart = later.db from
            congrArg Prod.snd (Option.some.inj ran), refundRateLimit_eq, Option.map_map]
          congr 1
          funext window
          simp only [Function.comp_apply, Window.refund]
          split <;> rfl
        · exact elsewhere (fun equal => same (Option.some.inj equal))
    | hitRateLimit counted windowMs now =>
        exact told.quiet rfl (fun other failure =>
          elsewhere (fun same => allowed (Option.some.inj same ▸ failure)))
    | hitCircuitBreaker counted windowMs now failed =>
        exact told.quiet rfl (fun other failure =>
          elsewhere (fun same => allowed (Option.some.inj same ▸ failure)))
    | _ => exact told.quiet rfl (fun other _ => elsewhere (fun same => by cases same))
  · exact told.quiet rfl (fun other _ => by rw [executes.2])
  · exact told.quiet rfl (fun other _ => by rw [executes.2])

end Step

-----------------------------------------------------------------------------------------
-- Guesses
-----------------------------------------------------------------------------------------

/-- The slot a request reserved last. -/
def lastReservation (one : Progress Op Op.Reply Request Response) : Option (String × Millis × Millis) :=
  (one.history.filterMap reservationOf).getLast?

/-- The slot a request has taken is the one it reserved last, by induction on its calls. -/
theorem slotUse_taken (one : Progress Op Op.Reply Request Response)
    : (slotUse one).taken = (lastReservation one).map (fun slot => (slot.1, slot.2.2)) := by
  have next_taken (use : SlotUse) (call : Call Op Op.Reply)
      : (use.next call.op call.ret).taken
        = ((reservationOf call).map (fun slot => (slot.1, slot.2.2))).or use.taken := by
    obtain ⟨op, reply⟩ := call
    rcases op with call | call | call
    · cases call with
      | reserveRateLimit bucket windowMs now max => cases reply <;> rfl
      | _ => rfl
    · rfl
    · cases call with
      | onEvent event => cases event <;> rfl
      | _ => rfl
  obtain ⟨request, history, rest⟩ := one
  induction history using List.reverseRecOn with
  | nil => rfl
  | append_singleton history call ih =>
      simp only [slotUse, lastReservation] at ih ⊢
      rw [List.foldl_append, List.foldl_cons, List.foldl_nil, next_taken, ih, List.filterMap_append]
      cases told : reservationOf call <;> simp [told]

/-- The address a request submits a code for. -/
def Request.guessesFor (cfg : Config) : Request → Option String
  | .emailVerify req => readEmail cfg (req.field "email")
  | _ => none

/-- The request compared a live code for the address at such a time, and was refused. -/
def guessed (cfg : Config) (email : String) (within : Millis → Bool)
    (one : Progress Op Op.Reply Request Response)
    : Bool :=
  !one.inFlight && (slotUse one).outcome = some .checkedFailure
    && one.request.guessesFor cfg = some email
    && (lastReservation one).any (fun slot => within slot.2.1)

section Reachable

variable {σ : Type} {sessions : Semantics SessionCall SessionCall.Reply σ} {world : World σ}
  {pool : Pool Op Op.Reply (World σ) Request Response}

/-- The log tells the windows in every reachable state, by the invariant rule. -/
theorem reachable_windowsTold (fresh : ∀ row ∈ world.db.limits.rows, ¬FailureBucket row.bucket)
    (reach : (deviceAuth platform cfg sessions).Reachable world pool) (punctual : Punctual pool.log)
    : WindowsTold cfg pool.world.db pool.log := by
  refine reach.invariant (fun _ _ _ _ _ => trivial) handle_slot
    (fun world _ log => Punctual log → WindowsTold cfg world.db log) ?_
    (fun _ _ _ _ told => told) ?_ punctual
  · intro _ bucket failure
    have absent : world.db.limits.find bucket = none := by
      refine Tables.Table.find_eq_none_iff.mpr (fun taken => ?_)
      obtain ⟨row, stored, same⟩ := List.mem_map.mp taken
      exact fresh row stored (same ▸ failure)
    rw [Database.window, absent]
    exact .start
  · intro world uses log index use op reply after _ allowed executes told punctual
    exact (told (List.pairwise_append.mp punctual).1).call allowed punctual executes

/-- What a request reserved is in the log. -/
theorem logged_of_lastReservation {one : Progress Op Op.Reply Request Response} {index : Nat}
    (found : pool.progress[index]? = some one) {slot : String × Millis × Millis}
    (reserved : lastReservation one = some slot)
    : ∃ call, reservationOf call = some slot ∧ ⟨index, call⟩ ∈ pool.log := by
  obtain ⟨call, made, told⟩ := List.mem_filterMap.mp (List.mem_of_getLast? reserved)
  rw [Service.getElem?_progress, Option.map_eq_some_iff] at found
  obtain ⟨thread, -, rfl⟩ := found
  exact ⟨call, told, Service.mem_history.mp made⟩

/-- The failures of a budget are kept in its subject's first bucket. -/
theorem budgetFor_failures (emailKey : String) (device : Option DeviceRecord)
    : (budgetFor cfg emailKey device).failures
      = "otp-fail:" ++ (device.map (fun device => "device:" ++ device.deviceId)).getD emailKey := by
  cases device with
  | none => rfl
  | some device => simp [budgetFor, ← String.append_assoc]

/-- The guesses of an interval that are charged to one budget. -/
theorem guessed_in_le (fresh : ∀ row ∈ world.db.limits.rows, ¬FailureBucket row.bucket)
    (reach : (deviceAuth platform cfg sessions).Reachable world pool) (punctual : Punctual pool.log)
    (address email : String) (device : Option DeviceRecord) {within : Millis → Bool}
    (short : ∀ first last, within first → within last → last < first + cfg.failureWindowSec * sec)
    : pool.progress.countP (fun one => guessed cfg email within one
        && (lastReservation one).any (fun slot =>
          slot.1 = (budgetFor cfg (sha256Hex platform address) device).failures))
      ≤ 2 * (budgetFor cfg (sha256Hex platform address) device).maxFailures := by
  let budget := budgetFor cfg (sha256Hex platform address) device
  have charged_le (windowStart : Millis)
      : pool.progress.countP (charged budget.failures windowStart) ≤ budget.maxFailures := by
    have bounded := (reachable_inBalance fresh reach address device).bounded windowStart
    rw [holders_eq reach] at bounded
    exact (Nat.le_add_left ..).trans bounded
  obtain ⟨one, other, covers⟩ := (reachable_windowsTold fresh reach punctual budget.failures
    (budgetFor_failureBucket cfg _ device)).two_windows
      (mul_pos cfg.failureWindow_pos (by decide +kernel)) (fun time => within time = true) short
  have split := countP_le_add pool.progress
    (fun one => guessed cfg email within one
      && (lastReservation one).any (fun slot => slot.1 = budget.failures))
    (charged budget.failures one) (charged budget.failures other) (by
      intro guess member counted
      obtain ⟨guess_eq, inside⟩ := (Bool.and_eq_true ..).mp counted
      simp only [guessed, Bool.and_eq_true, decide_eq_true_eq] at guess_eq
      obtain ⟨⟨⟨ended, failed⟩, -⟩, timely⟩ := guess_eq
      obtain ⟨slot, reserved, here⟩ := (Option.any_eq_true ..).mp timely
      rw [reserved, Option.any_some, decide_eq_true_eq] at inside
      obtain ⟨bucket, time, start⟩ := slot
      obtain rfl : bucket = budget.failures := inside
      have taken := slotUse_taken guess
      rw [reserved, Option.map_some] at taken
      obtain ⟨index, position, rfl⟩ := List.mem_iff_getElem.mp member
      obtain ⟨call, told, logged⟩ :=
        logged_of_lastReservation (List.getElem?_eq_getElem position) reserved
      have window := covers (time, start) (mem_reservationsIn.mpr ⟨_, logged, told⟩) here
      simpa [charged, ended, failed, taken] using window)
  calc
    _ ≤ _ := split
    _ ≤ budget.maxFailures + budget.maxFailures := Nat.add_le_add (charged_le one) (charged_le other)
    _ = 2 * budget.maxFailures := (Nat.two_mul _).symm

/-- A guess is charged to its address, or to a device that was presented for it. -/
theorem guess_charged (reach : (deviceAuth platform cfg sessions).Reachable world pool)
    {one : Progress Op Op.Reply Request Response} {index : Nat}
    (found : pool.progress[index]? = some one) {email : String}
    (guesses : one.request.guessesFor cfg = some email) {slot : String × Millis × Millis}
    (reserved : lastReservation one = some slot)
    : slot.1 = (budgetFor cfg (sha256Hex platform email) none).failures
      ∨ ∃ req device, pool.requestOf index = some (.emailVerify req)
          ∧ PresentedFor platform cfg sessions world pool index req device ∧ device.email = email
          ∧ slot.1 = (budgetFor cfg (sha256Hex platform email) (some device)).failures := by
  obtain ⟨⟨op, reply⟩, told, logged⟩ := logged_of_lastReservation found reserved
  have serves : pool.requestOf index = some one.request := by
    rw [Service.getElem?_progress, Option.map_eq_some_iff] at found
    obtain ⟨thread, found, rfl⟩ := found
    rw [Pool.requestOf, found, Option.map_some]
  obtain ⟨before, after, split⟩ := List.append_of_mem logged
  obtain ⟨request, earlier, following, made⟩ := reach.made bucketMonitor_faithful handle_bucketed split
  obtain rfl : request = one.request := Option.some.inj (made.serves.symm.trans serves)
  -- the protocol of slots: it was reserved in the failure bucket of some budget
  obtain ⟨bucket, windowMs, now, max, rfl⟩ : ∃ bucket windowMs now max,
      op = .store (.reserveRateLimit bucket windowMs now max) := by
    unfold reservationOf at told
    split at told
    · next same =>
        cases same
        exact ⟨_, _, _, _, rfl⟩
    · cases told
  obtain rfl : slot.1 = bucket := by
    cases reply <;> simp [reservationOf] at told
    exact congrArg Prod.fst told.symm
  obtain ⟨request, rest, progressed, -⟩ := made.performs.progress_eq
  obtain ⟨⟨-, -, -, address, charged, failures, -⟩, -⟩ :=
    made.reachable.obeys (fun _ _ _ _ _ => trivial) handle_slot _ (List.mem_of_getElem? progressed)
  have member : slot.1 ∈ (budgetFor cfg (sha256Hex platform address) charged).buckets :=
    List.mem_cons.mpr (.inl failures)
  rw [budgetFor_buckets] at member
  -- the protocol of buckets: it is charged to the budget of the request
  rcases made.allowed with uncharged | ⟨_, ⟨req, email', at_, device, about, read, clock, finds, rfl⟩, counts⟩
  · exact absurd (uncharged slot.1 rfl) (not_shared member)
  have inside := (counts slot.1 rfl).resolve_left (not_shared member)
  rw [budgetFor_buckets] at inside
  have same : slot.1 = (budgetFor cfg (sha256Hex platform email') device).failures := by
    rw [failures, budgetFor_failures, budgetFor_failures, subject_unique member inside]
  have later : earlier.history index ⊆ pool.history index := fun call recorded =>
    Service.mem_history_run (.head (.perform made.performs) made.run) recorded
  cases verifies : one.request with
  | emailVerify sent =>
      rw [verifies] at guesses about
      obtain rfl : sent = req := Option.some.inj about
      obtain rfl : email = email' := Option.some.inj (guesses.symm.trans read)
      cases device with
      | none => exact .inl same
      | some device =>
          obtain ⟨presents, rfl⟩ := finds
          have presents := presents.later later
          have stored := reach.madeWhen presents.found
            (fun world => world.db.devices.find device.deviceId = some device)
            (fun _ _ executes => (Prod.mk.inj (Option.some.inj executes.1)).1)
          exact .inr ⟨sent, device, verifies ▸ serves,
            ⟨at_, later clock, presents, read, stored⟩, rfl, same⟩
  | _ => simp [Request.guessesFor, verifies] at guesses

/-- How many codes can be guessed for one address, in any interleaving of requests: in an interval
shorter than the failure window, twice the address's budget and twice that of each device presented for
it.
-/
theorem guesses_bounded (fresh : ∀ row ∈ world.db.limits.rows, ¬FailureBucket row.bucket)
    (reach : (deviceAuth platform cfg sessions).Reachable world pool) (punctual : Punctual pool.log)
    (email : String) (devices : Finset String)
    (presented : ∀ index req device, pool.requestOf index = some (.emailVerify req)
      → PresentedFor platform cfg sessions world pool index req device → device.email = email
      → device.deviceId ∈ devices)
    (within : Millis → Bool)
    (short : ∀ first last, within first → within last → last < first + cfg.failureWindowSec * sec)
    : pool.progress.countP (guessed cfg email within)
      ≤ 2 * (cfg.maxFailuresPerEmail + devices.card * cfg.maxFailuresPerDevice) := by
  let deviceBucket (deviceId : String) : String := "otp-fail:" ++ ("device:" ++ deviceId)
  let ofDevice (one : Progress Op Op.Reply Request Response) : Bool :=
    guessed cfg email within one
      && (lastReservation one).any (fun slot => slot.1 ∈ devices.image deviceBucket)
  have charged {guess : Progress Op Op.Reply Request Response} (member : guess ∈ pool.progress)
      (counted : guessed cfg email within guess = true)
      : ∃ slot, lastReservation guess = some slot
          ∧ (slot.1 = (budgetFor cfg (sha256Hex platform email) none).failures
            ∨ ∃ device, device.deviceId ∈ devices
              ∧ slot.1 = (budgetFor cfg (sha256Hex platform email) (some device)).failures) := by
    simp only [guessed, Bool.and_eq_true, decide_eq_true_eq] at counted
    obtain ⟨⟨-, guesses⟩, timely⟩ := counted
    obtain ⟨slot, reserved, -⟩ := (Option.any_eq_true ..).mp timely
    obtain ⟨index, position, rfl⟩ := List.mem_iff_getElem.mp member
    refine ⟨slot, reserved, ?_⟩
    refine (guess_charged reach (List.getElem?_eq_getElem position) guesses reserved).imp_right ?_
    rintro ⟨req, device, serves, shown, registered, same⟩
    exact ⟨device, presented index req device serves shown registered, same⟩
  have split := countP_le_add pool.progress (guessed cfg email within)
    (fun one => guessed cfg email within one && (lastReservation one).any (fun slot =>
      slot.1 = (budgetFor cfg (sha256Hex platform email) none).failures))
    ofDevice (by
      intro guess member counted
      obtain ⟨slot, reserved, own | ⟨device, shown, same⟩⟩ := charged member counted
      · exact .inl (by simp [counted, reserved, own])
      · rw [budgetFor_failures] at same
        refine .inr ?_
        simp only [ofDevice, counted, reserved, Bool.true_and, Option.any_some, decide_eq_true_eq]
        exact same ▸ Finset.mem_image_of_mem deviceBucket shown)
  have by_device : pool.progress.countP ofDevice ≤ 2 * cfg.maxFailuresPerDevice * devices.card := by
    let bucketOf (one : Progress Op Op.Reply Request Response) : String :=
      ((lastReservation one).map Prod.fst).getD ""
    have each (bucket : String) : (pool.progress.filter ofDevice).countP (fun one => bucketOf one = bucket)
        ≤ 2 * cfg.maxFailuresPerDevice := by
      by_cases some_ : ∃ guess ∈ pool.progress.filter ofDevice, bucketOf guess = bucket
      · obtain ⟨guess, listed, rfl⟩ := some_
        obtain ⟨member, its⟩ := List.mem_filter.mp listed
        obtain ⟨counted, here⟩ := (Bool.and_eq_true ..).mp its
        obtain ⟨slot, reserved, own | ⟨device, shown, same⟩⟩ := charged member counted
        · -- the address has no device's bucket
          simp only [reserved, Option.any_some, decide_eq_true_eq, Finset.mem_image] at here
          obtain ⟨deviceId, -, equal⟩ := here
          rw [own, budgetFor_failures] at equal
          exact absurd ((String.append_right_inj _).mp equal).symm (sha256Hex_ne_device email deviceId)
        · refine le_trans (le_of_eq_of_le List.countP_filter (List.countP_mono_left ?_))
            (guessed_in_le fresh reach punctual email email (some device) short)
          intro one _ both
          obtain ⟨equal, its⟩ := (Bool.and_eq_true ..).mp both
          obtain ⟨also, there⟩ := (Bool.and_eq_true ..).mp its
          obtain ⟨other, reserved_other, -⟩ := (Option.any_eq_true ..).mp there
          simp only [bucketOf, reserved, reserved_other, Option.map_some, Option.getD_some,
            decide_eq_true_eq] at equal
          simp [also, reserved_other, equal, same]
      · rw [List.countP_eq_zero.mpr (by simpa using some_)]
        exact Nat.zero_le _
    have inside : ((pool.progress.filter ofDevice).map bucketOf).toFinset ⊆ devices.image deviceBucket := by
      intro bucket member
      obtain ⟨guess, listed, rfl⟩ := List.mem_map.mp (List.mem_toFinset.mp member)
      obtain ⟨slot, reserved, here⟩ := (Option.any_eq_true ..).mp
        ((Bool.and_eq_true ..).mp (List.mem_filter.mp listed).2).2
      simpa [bucketOf, reserved] using here
    calc
      _ = (pool.progress.filter ofDevice).length := List.countP_eq_length_filter
      _ ≤ _ := length_le_mul_card _ bucketOf _ each
      _ ≤ 2 * cfg.maxFailuresPerDevice * devices.card :=
        Nat.mul_le_mul_left _ ((Finset.card_le_card inside).trans Finset.card_image_le)
  calc
    _ ≤ _ := split
    _ ≤ 2 * cfg.maxFailuresPerEmail + 2 * cfg.maxFailuresPerDevice * devices.card :=
      Nat.add_le_add (guessed_in_le fresh reach punctual email email none short) by_device
    _ = _ := by ring

end Reachable

open Sample in
/-- A wrong code for the sample address is one guess of six, where no device was presented. -/
theorem guesses_bounded_played
    : ∃ state : State, service.Reachable empty state
        ∧ state.progress.countP (guessed config "user42@example.com"
            (fun time => 0 ≤ time && time < 3600000)) = 1
        ∧ state.progress.countP (guessed config "user42@example.com"
            (fun time => 0 ≤ time && time < 3600000)) ≤ 2 * (3 + 0 * 3) := by
  obtain ⟨state, reach, checked⟩ := exists_played empty
    (issued ++ .arrive (verifyRequest "105833") :: calls 1000 1 4)
    (fun state => Punctual state.log
      && (state.threads.all (fun thread => match thread.request with
        | .emailVerify req => (parseDeviceToken ((presentedDeviceToken config req).getD "")).isNone
        | _ => true)
      && state.progress.countP (guessed config "user42@example.com"
            (fun time => 0 ≤ time && time < 3600000)) = 1))
    (by decide +kernel)
  simp only [Bool.and_eq_true, decide_eq_true_eq] at checked
  obtain ⟨punctual, tokenless, once⟩ := checked
  refine ⟨state, reach, once, ?_⟩
  refine guesses_bounded (List.forall_mem_nil _) reach punctual "user42@example.com" ∅
    (fun index req device serves shown _ => ?_) _ ?_
  · obtain ⟨thread, found, verifies⟩ := Option.map_eq_some_iff.mp serves
    have none_ := List.all_eq_true.mp tokenless thread (List.mem_of_getElem? found)
    obtain ⟨_, _, presents, _⟩ := shown
    obtain ⟨secret, parsed, _⟩ := presents.secret
    simp [verifies, parsed] at none_
  · intro first last from_ until_
    simp only [Bool.and_eq_true, decide_eq_true_eq] at from_ until_
    have window : config.failureWindowSec * sec = 3600000 := by decide +kernel
    rw [window]
    exact until_.2.trans_le (le_add_of_nonneg_left from_.1)

end WorkersAuth.DeviceAuth

import WorkersAuth.DeviceAuth.Counting
import WorkersAuth.DeviceAuth.PinLogin

/-! Whose buckets a request counts in.
All limits share one table, keyed by concatenated strings. A request counts in the buckets of a
device only with the device's id and secret, and in the buckets of an address only without a device
of that address; and the names of different kinds of buckets never coincide.
-/

namespace WorkersAuth.DeviceAuth

open Atomic

variable (platform : Platform) (cfg : Config)

-----------------------------------------------------------------------------------------
-- The buckets
-----------------------------------------------------------------------------------------

/-- The buckets of one subject: its failures, its cooldown and its hourly sends. -/
def subjectBuckets (subject : String) : List String :=
  ["otp-fail:" ++ subject, "otp-cool:" ++ subject, "otp-email:" ++ subject]

/-- The buckets that belong to a trusted device. -/
def deviceBuckets (deviceId : String) : List String := subjectBuckets ("device:" ++ deviceId)

/-- The buckets that belong to an address. -/
def addressBuckets (address : String) : List String := subjectBuckets (sha256Hex platform address)

/-- The buckets a budget is kept in. -/
def Budget.buckets (budget : Budget) : List String :=
  [budget.failures, "otp-cool:" ++ budget.send, "otp-email:" ++ budget.send]

/-- A budget is the device's, or the address's when there is none. -/
theorem budgetFor_buckets (emailKey : String) (device : Option DeviceRecord)
    : (budgetFor cfg emailKey device).buckets
      = subjectBuckets ((device.map (fun device => "device:" ++ device.deviceId)).getD emailKey) := by
  cases device with
  | none => rfl
  | some device => simp [Budget.buckets, budgetFor, subjectBuckets, ← String.append_assoc]

-----------------------------------------------------------------------------------------
-- The protocol
-----------------------------------------------------------------------------------------

/-- The request presents this device: with its id and secret, and live at the time, as the store has
answered.
-/
structure PresentsDevice (req : HttpRequest) (now : Millis) (history : List (Call Op Op.Reply))
    (device : DeviceRecord)
    : Prop where
  secret : ∃ secret, parseDeviceToken ((presentedDeviceToken cfg req).getD "")
      = some (device.deviceId, secret)
    ∧ sha256Hex platform secret = device.secretHash
  found : ⟨.store (.findDevice device.deviceId), some device⟩ ∈ history
  live : Database.deviceLive now device

/-- The request presents no live device: it has no token, or the store's answer shows that the token
is of no such device.
-/
def PresentsNoDevice (req : HttpRequest) (now : Millis) (history : List (Call Op Op.Reply)) : Prop :=
  ∀ deviceId secret, parseDeviceToken ((presentedDeviceToken cfg req).getD "") = some (deviceId, secret)
    → ∃ found, ⟨.store (.findDevice deviceId), found⟩ ∈ history
      ∧ ∀ device ∈ found, ¬(sha256Hex platform secret = device.secretHash ∧ Database.deviceLive now device)

/-- What a request has found out about a device of its address. -/
def FindsDevice (req : HttpRequest) (email : String) (now : Millis) (history : List (Call Op Op.Reply))
    : Option DeviceRecord → Prop
  | some device => PresentsDevice platform cfg req now history device ∧ device.email = email
  | none => PresentsNoDevice platform cfg req now history
      ∨ ∃ device, PresentsDevice platform cfg req now history device ∧ device.email ≠ email

/-- The request to one of the two routes that send and check codes. -/
def Request.aboutCode : Request → Option HttpRequest
  | .emailStart req => some req
  | .emailVerify req => some req
  | _ => none

/-- The budget of the request's address and of the device it presents. -/
def ChargedTo (journal : Journal Op Op.Reply Request) (budget : Budget) : Prop :=
  ∃ req email now device,
    journal.request.aboutCode = some req
    ∧ readEmail cfg (req.field "email") = some email
    ∧ ⟨.host .clock, now⟩ ∈ journal.history
    ∧ FindsDevice platform cfg req email now journal.history device
    ∧ budget = budgetFor cfg (sha256Hex platform email) device

/-- The buckets that belong to no address and no device: the breaker's and those of IPs. -/
def SharedBucket (bucket : String) : Prop :=
  bucket = cbBucket
  ∨ ∃ action ∈ ["otp-start", "otp-verify", "pin-login"], ∃ ip, bucket = ipBucket platform action ip

/-- A request counts in the buckets of a budget only when it is charged to that budget. -/
def bucketProtocol (journal : Journal Op Op.Reply Request) (op : Op) : Prop :=
  countsIn (SharedBucket platform) op
  ∨ ∃ budget, ChargedTo platform cfg journal budget
      ∧ countsIn (fun bucket => SharedBucket platform bucket ∨ bucket ∈ budget.buckets) op

abbrev bucketMonitor : Monitor Op Op.Reply (Journal Op Op.Reply Request) :=
  .journal (bucketProtocol platform cfg) (Replies platform)

variable {platform cfg} {journal : Journal Op Op.Reply Request} {req : HttpRequest}
  {request : Request} {calls : List (Call Op Op.Reply)}

-----------------------------------------------------------------------------------------
-- The device of an address
-----------------------------------------------------------------------------------------

theorem PresentsDevice.later {now : Millis} {history longer : List (Call Op Op.Reply)} {device : DeviceRecord}
    (presents : PresentsDevice platform cfg req now history device) (grown : history ⊆ longer)
    : PresentsDevice platform cfg req now longer device :=
  ⟨presents.secret, grown presents.found, presents.live⟩

/-- What was found out stays true of a longer history, by cases on it. -/
theorem FindsDevice.later {email : String} {now : Millis} {history longer : List (Call Op Op.Reply)}
    {device : Option DeviceRecord} (finds : FindsDevice platform cfg req email now history device)
    (grown : history ⊆ longer)
    : FindsDevice platform cfg req email now longer device := by
  cases device with
  | some device => exact ⟨finds.1.later grown, finds.2⟩
  | none =>
      rcases finds with nobody | ⟨device, presents, other⟩
      · refine .inl (fun deviceId secret parsed => ?_)
        obtain ⟨found, recorded, none_such⟩ := nobody deviceId secret parsed
        exact ⟨found, grown recorded, none_such⟩
      · exact .inr ⟨device, presents.later grown, other⟩

/-- What `readDevice` has found out. -/
def ReadsDevice (platform : Platform) (cfg : Config) (req : HttpRequest) (now : Millis)
    (history : List (Call Op Op.Reply))
    : Option DeviceRecord → Prop
  | some device => PresentsDevice platform cfg req now history device
  | none => PresentsNoDevice platform cfg req now history

/-- The device is looked up by the id of the presented token, and checked against its secret and the
clock's reading.
-/
theorem readDevice_reads {now : Millis} (knows : journal.Knows request calls)
    : (readDevice platform cfg req now).Obeys (bucketMonitor platform cfg)
        (fun next presented => Journal.Knows request calls next
          ∧ ReadsDevice platform cfg req now next.history presented) journal := by
  unfold readDevice
  split
  · next unparsed =>
      exact .answer ⟨knows, fun deviceId secret parsed => by cases unparsed.symm.trans parsed⟩
  next deviceId secret parsed =>
  refine .perform (.inl (countsIn_of_uncounted rfl)) (fun found sought => ?_)
  have kept := knows.write (.store (.findDevice deviceId)) found
  have recorded := (knows.add (.store (.findDevice deviceId)) found).recorded _ List.mem_cons_self
  have nobody (none_such : ∀ device ∈ found,
        ¬(sha256Hex platform secret = device.secretHash ∧ Database.deviceLive now device))
      : PresentsNoDevice platform cfg req now
          (journal.write (.store (.findDevice deviceId)) found).history := by
    intro otherId otherSecret again
    cases parsed.symm.trans again
    exact ⟨found, recorded, none_such⟩
  cases found with
  | none => exact .answer ⟨kept, nobody (fun device none_ => by cases none_)⟩
  | some device =>
      have refused (not_so : ¬(sha256Hex platform secret = device.secretHash
            ∧ Database.deviceLive now device))
          : (Pure.pure none : Handler (Option DeviceRecord)).Obeys (bucketMonitor platform cfg)
              (fun next presented => Journal.Knows request calls next
                ∧ ReadsDevice platform cfg req now next.history presented)
              (journal.write (.store (.findDevice deviceId)) (some device)) := by
        refine .answer ⟨kept, nobody ?_⟩
        rintro _ ⟨⟩
        exact not_so
      simp only [Database.deviceLive, Bool.and_eq_true, Option.isNone_iff_eq_none,
        decide_eq_true_eq] at refused
      simp only
      split
      · next wrong =>
          refine refused (fun both => ?_)
          rw [verifySecretHash_iff.mpr both.1] at wrong
          cases wrong
      next verified =>
      split
      · next revoked =>
          refine refused (fun both => ?_)
          simp [both.2.1.1] at revoked
      next unrevoked =>
      split
      · next expired =>
          refine refused (fun both => ?_)
          rcases expired with idle | absolute
          · exact absurd both.2.1.2 (not_lt.mpr idle)
          · exact absurd both.2.2 (not_lt.mpr absolute)
      next unexpired =>
      obtain rfl : device.deviceId = deviceId := sought device rfl
      simp only [not_or, not_le, Bool.not_eq_true', Bool.not_eq_false, verifySecretHash_iff,
        Option.not_isSome_iff_eq_none] at verified unrevoked unexpired
      refine .answer ⟨kept, ⟨secret, parsed, verified⟩, recorded, ?_⟩
      simp [Database.deviceLive, unrevoked, unexpired]

/-- The device of the address is the presented one, when it is registered to that address. -/
theorem deviceOfAddress_finds {email : String} {now : Millis} (knows : journal.Knows request calls)
    : (deviceOfAddress platform cfg req email now).Obeys (bucketMonitor platform cfg)
        (fun next device => Journal.Knows request calls next
          ∧ FindsDevice platform cfg req email now next.history device) journal := by
  refine (readDevice_reads knows).bind (fun next presented known => .answer ⟨known.1, ?_⟩)
  cases presented with
  | none => exact .inl known.2
  | some device =>
      by_cases same : device.email = email
      · rw [Option.filter_some, if_pos (decide_eq_true same)]
        exact ⟨known.2, same⟩
      · rw [Option.filter_some, if_neg (by simpa using same)]
        exact .inr ⟨device, known.2, same⟩

-----------------------------------------------------------------------------------------
-- The routes
-----------------------------------------------------------------------------------------

/-- Being charged to a budget stays so. -/
theorem ChargedTo.write {budget : Budget} (charged : ChargedTo platform cfg journal budget) (op : Op)
    (reply : op.Reply)
    : ChargedTo platform cfg (journal.write op reply) budget := by
  obtain ⟨req, email, now, device, about, address, clock, finds, same⟩ := charged
  have grown : journal.history ⊆ (journal.write op reply).history := List.subset_append_left _ _
  exact ⟨req, email, now, device, about, address, grown clock, finds.later grown, same⟩

/-- A part of a request that counts in the buckets of the budget it is charged to. -/
theorem obeys_charged {α : Type} {part : Handler α} {budget : Budget}
    (within : part.Within
      (countsIn (fun bucket => SharedBucket platform bucket ∨ bucket ∈ budget.buckets)))
    (charged : ChargedTo platform cfg journal budget)
    : part.Obeys (bucketMonitor platform cfg) (fun _ _ => True) journal := by
  refine (within.obeys_keeps (fun journal => ChargedTo platform cfg journal budget)
    (fun journal op charged counts => ⟨Or.inr ⟨budget, charged, counts⟩, fun reply => ?_⟩) charged).mono
    (fun _ _ _ => trivial)
  exact charged.write op reply

/-- A part of a request that counts in no budget's bucket, then the rest. -/
theorem obeys_uncharged {α β : Type} {part : Handler β} {rest : β → Handler α}
    {post : Journal Op Op.Reply Request → α → Prop} (within : part.Within (countsIn (SharedBucket platform)))
    (knows : journal.Knows request calls)
    (later : ∀ answer next, Journal.Knows request calls next
      → (rest answer).Obeys (bucketMonitor platform cfg) post next)
    : (part >>= rest).Obeys (bucketMonitor platform cfg) post journal :=
  within.obeys_journal (fun _ _ _ counts => .inl counts) knows later

/-- The limit of the client's IP is a shared bucket. -/
theorem ipBucket_shared {action : String} (known : action ∈ ["otp-start", "otp-verify", "pin-login"])
    (ip : String)
    : SharedBucket platform (ipBucket platform action ip) :=
  .inr ⟨action, known, ip, rfl⟩

/-- `POST /email/start` counts in the buckets of the budget it is charged to. -/
theorem emailStart_bucketed (req : HttpRequest)
    : (emailStart platform cfg req).Obeys (bucketMonitor platform cfg) (fun _ _ => True)
        ⟨.emailStart req, []⟩ := by
  have start : (⟨.emailStart req, []⟩ : Journal Op Op.Reply Request).Knows (.emailStart req) [] :=
    ⟨rfl, by simp⟩
  unfold emailStart
  refine obeys_uncharged (within_incidental (gate_incidental ..)) start (fun gated journal knows => ?_)
  split
  · trivial
  split
  · trivial
  split
  case h_2 => trivial
  next email address =>
  refine obeys_uncharged (within_incidental (botRefused_incidental ..)) knows
    (fun bot journal knows => ?_)
  split
  · trivial
  refine .recall knows (.inl trivial) (fun now journal _ knows => ?_)
  refine obeys_uncharged (ipLimited_counts (ipBucket_shared (by simp))) knows
    (fun hit journal knows => ?_)
  split
  · trivial
  refine (deviceOfAddress_finds knows).bind (fun journal device known => ?_)
  have charged : ChargedTo platform cfg journal (budgetFor cfg (sha256Hex platform email) device) :=
    ⟨req, email, now, device, by rw [known.1.request_eq]; rfl, address,
      known.1.recorded _ List.mem_cons_self, known.2, rfl⟩
  exact obeys_charged (quotas_count (.inr (by simp [Budget.buckets])) (.inr (by simp [Budget.buckets])))
    charged

/-- `POST /email/verify` counts in the buckets of the budget it is charged to. -/
theorem emailVerify_bucketed (req : HttpRequest)
    : (emailVerify platform cfg req).Obeys (bucketMonitor platform cfg) (fun _ _ => True)
        ⟨.emailVerify req, []⟩ := by
  have start : (⟨.emailVerify req, []⟩ : Journal Op Op.Reply Request).Knows (.emailVerify req) [] :=
    ⟨rfl, by simp⟩
  unfold emailVerify
  refine obeys_uncharged (within_incidental (gate_incidental ..)) start (fun gated journal knows => ?_)
  split
  · trivial
  split
  · trivial
  split
  case h_2 => trivial
  next email address =>
  split
  case h_2 => trivial
  refine obeys_uncharged (within_incidental (botRefused_incidental ..)) knows
    (fun bot journal knows => ?_)
  split
  · trivial
  refine .recall knows (.inl trivial) (fun now journal _ knows => ?_)
  refine obeys_uncharged (ipLimited_counts (ipBucket_shared (by simp))) knows
    (fun hit journal knows => ?_)
  split
  · trivial
  have reads : (breakerRefused cfg now).Within (countsIn (SharedBucket platform)) :=
    breakerRefused_within cfg (fun _ => countsIn_incidental) (fun _ => countsIn_of_uncounted rfl)
  refine obeys_uncharged reads knows (fun open_ journal knows => ?_)
  split
  · trivial
  refine (deviceOfAddress_finds knows).bind (fun journal device known => ?_)
  have charged : ChargedTo platform cfg journal (budgetFor cfg (sha256Hex platform email) device) :=
    ⟨req, email, now, device, by rw [known.1.request_eq]; rfl, address,
      known.1.recorded _ List.mem_cons_self, known.2, rfl⟩
  exact obeys_charged (reserveSlot_counts (.inr List.mem_cons_self) (.inl (.inl rfl))) charged

/-- Every request counts in the breaker's bucket, in those of its client's IP and in those of the
budget it is charged to, by cases on the route.
-/
theorem handle_bucketed (request : Request)
    : (handle platform cfg request).Obeys (bucketMonitor platform cfg) (fun _ _ => True)
        ⟨request, []⟩ := by
  have others (within : (handle platform cfg request).Within (countsIn (SharedBucket platform)))
      : (handle platform cfg request).Obeys (bucketMonitor platform cfg) (fun _ _ => True)
          ⟨request, []⟩ :=
    within.obeys_free (fun _ _ counts => .inl counts)
  have footprint := handle_within platform cfg request
  cases request with
  | emailStart req => exact emailStart_bucketed req
  | emailVerify req => exact emailVerify_bucketed req
  | pinLogin req => exact others (pinLogin_counts req (ipBucket_shared (by simp)))
  | setPin req => exact others (footprint.mono (fun _ => setPin_counts))
  | _ => exact others (footprint.mono (fun _ => manage_counts))

-----------------------------------------------------------------------------------------
-- Names of buckets
-----------------------------------------------------------------------------------------

/-- An address hash is hexadecimal, so it never begins like the name of a device's budget. -/
theorem sha256Hex_ne_device (email deviceId : String)
    : sha256Hex platform email ≠ "device:" ++ deviceId := by
  intro same
  have member : 'v' ∈ (sha256Hex platform email).toList := by
    rw [same, String.toList_append]
    simp
  exact absurd (isHexChar_of_mem_toHex member) (by decide)

/-- The buckets of two subjects have no name in common unless the subjects are the same. -/
theorem subject_unique {one other bucket : String} (first : bucket ∈ subjectBuckets one)
    (second : bucket ∈ subjectBuckets other)
    : one = other := by
  simp only [subjectBuckets, List.mem_cons, List.not_mem_nil, or_false] at first second
  rcases first with rfl | rfl | rfl <;> rcases second with same | same | same <;>
    first
    | exact (String.append_right_inj _).mp same
    | simp [← String.toList_inj] at same

/-- The breaker's bucket and the buckets of IPs belong to no subject. -/
theorem not_shared {subject bucket : String} (member : bucket ∈ subjectBuckets subject)
    : ¬SharedBucket platform bucket := by
  simp only [subjectBuckets, List.mem_cons, List.not_mem_nil, or_false] at member
  rintro (rfl | ⟨action, known, ip, rfl⟩)
  · rcases member with same | same | same <;> simp [cbBucket, ← String.toList_inj] at same
  · simp only [List.mem_cons, List.not_mem_nil, or_false] at known
    rcases known with rfl | rfl | rfl <;> rcases member with same | same | same <;>
      simp [ipBucket, ← String.toList_inj] at same

-----------------------------------------------------------------------------------------
-- In every run
-----------------------------------------------------------------------------------------

variable {σ : Type} {sessions : Semantics SessionCall SessionCall.Reply σ} {world : World σ}
  {pool next : Pool Op Op.Reply (World σ) Request Response}

theorem bucketMonitor_faithful
    : (deviceAuth platform cfg sessions).Faithful (bucketMonitor platform cfg) :=
  fun op before reply after executes =>
    @mintMonitor_faithful platform cfg _ _ op before reply after executes

/-- The device was presented: the request has its token, and the device was stored with the hash of the
token's secret, live at a reading of the request's clock and registered to the request's address.
-/
def PresentedFor (platform : Platform) (cfg : Config)
    (sessions : Semantics SessionCall SessionCall.Reply σ) (world : World σ)
    (pool : Pool Op Op.Reply (World σ) Request Response) (index : Nat) (req : HttpRequest)
    (device : DeviceRecord)
    : Prop :=
  ∃ now, ⟨.host .clock, now⟩ ∈ pool.history index
    ∧ PresentsDevice platform cfg req now (pool.history index) device
    ∧ readEmail cfg (req.field "email") = some device.email
    ∧ (deviceAuth platform cfg sessions).MadeWhen world pool index
        ⟨.store (.findDevice device.deviceId), some device⟩
        (fun world => world.db.devices.find device.deviceId = some device)

/-- Whatever changes the row of a bucket, in any interleaving of requests. A device's buckets change
only for a request that presents this device for the address it is registered to. An address's
buckets change only for a request for this address that has found no live device of it behind its
token.
-/
theorem buckets_isolated (injective : Function.Injective platform.sha256)
    (reach : (deviceAuth platform cfg sessions).Reachable world pool) {entry : Entry Op Op.Reply}
    (performs : (deviceAuth platform cfg sessions).Performs pool entry next) {bucket : String}
    (changes : next.world.db.limits.find bucket ≠ pool.world.db.limits.find bucket)
    : (∀ deviceId, bucket ∈ deviceBuckets deviceId → ∃ request req device,
        pool.requestOf entry.thread = some request ∧ request.aboutCode = some req
        ∧ device.deviceId = deviceId
        ∧ PresentedFor platform cfg sessions world pool entry.thread req device)
      ∧ (∀ address, bucket ∈ addressBuckets platform address → ∃ request req now,
        pool.requestOf entry.thread = some request ∧ request.aboutCode = some req
        ∧ readEmail cfg (req.field "email") = some address
        ∧ ⟨.host .clock, now⟩ ∈ pool.history entry.thread
        ∧ FindsDevice platform cfg req address now (pool.history entry.thread) none) := by
  obtain ⟨request, rest, found, _⟩ := performs.progress_eq
  have obeying := reach.obeys bucketMonitor_faithful handle_bucketed _ (List.mem_of_getElem? found)
  rw [Monitor.journal_track, List.nil_append] at obeying
  have serves : pool.requestOf entry.thread = some request := by
    rw [Service.getElem?_progress, Option.map_eq_some_iff] at found
    obtain ⟨thread, found, same⟩ := found
    rw [Pool.requestOf, found, Option.map_some]
    exact congrArg some (congrArg Progress.request same)
  have counts (names : String → Prop) (allowed : countsIn names entry.call.op) : names bucket := by
    have executes := performs.executes
    obtain ⟨thread, op, reply⟩ := entry
    rcases op with call | call | call
    · refine allowed bucket ?_
      by_contra elsewhere
      exact changes (call.limit_eq executes.1 elsewhere)
    · exact absurd (congrArg (fun db => db.limits.find bucket) executes.2) changes
    · exact absurd (congrArg (fun world => world.db.limits.find bucket) executes.2) changes
  have charged (subject : String) (member : bucket ∈ subjectBuckets subject)
      : ∃ budget, ChargedTo platform cfg ⟨request, pool.history entry.thread⟩ budget
        ∧ bucket ∈ budget.buckets := by
    rcases obeying.1 with uncharged | ⟨budget, charged, allowed⟩
    · exact absurd (counts _ uncharged) (not_shared member)
    · exact ⟨budget, charged, (counts _ allowed).resolve_left (not_shared member)⟩
  constructor
  · intro deviceId member
    obtain ⟨_, ⟨req, email, now, device, about, address, clock, finds, rfl⟩, inside⟩ := charged _ member
    rw [budgetFor_buckets] at inside
    have subject := subject_unique inside member
    cases device with
    | none => exact absurd subject (sha256Hex_ne_device email deviceId)
    | some device =>
        obtain ⟨presents, rfl⟩ := finds
        obtain rfl : device.deviceId = deviceId := (String.append_right_inj _).mp subject
        have stored := reach.madeWhen presents.found
          (fun world => world.db.devices.find device.deviceId = some device)
          (fun _ _ executes => (Prod.mk.inj (Option.some.inj executes.1)).1)
        exact ⟨request, req, device, serves, about, rfl, now, clock, presents, address, stored⟩
  · intro address member
    obtain ⟨_, ⟨req, email, now, device, about, read, clock, finds, rfl⟩, inside⟩ := charged _ member
    rw [budgetFor_buckets] at inside
    have subject := subject_unique inside member
    cases device with
    | some device => exact absurd subject.symm (sha256Hex_ne_device address device.deviceId)
    | none =>
        obtain rfl : email = address := injective (toHex_injective subject)
        exact ⟨request, req, now, serves, about, read, clock, finds⟩

open Sample in
/-- A request for a code that presents the sample device changes the device's cooldown. -/
theorem buckets_isolated_played
    : ∃ (state next : State) (req : HttpRequest) (device : DeviceRecord) (index : Nat),
        service.Reachable enrolled state
        ∧ next.world.db.limits.find "otp-cool:device:000102030405060708090a0b0c0d0e0f"
          ≠ state.world.db.limits.find "otp-cool:device:000102030405060708090a0b0c0d0e0f"
        ∧ device.deviceId = "000102030405060708090a0b0c0d0e0f"
        ∧ PresentedFor Sample.platform config memorySessions enrolled state index req device := by
  obtain ⟨state, entry, next, reach, _, performs, differs⟩ := exists_performed enrolled
    (.arrive (.emailStart (Sample.request [("email", .str "user42@example.com")] (some deviceToken)))
      :: calls 0 0 3) 0 { now := 0 }
    (fun state next =>
      (state.world.db.limits.find "otp-cool:device:000102030405060708090a0b0c0d0e0f").isNone
      && (next.world.db.limits.find "otp-cool:device:000102030405060708090a0b0c0d0e0f").isSome)
    (by decide +kernel)
  obtain ⟨before, after⟩ := (Bool.and_eq_true ..).mp differs
  have changes : next.world.db.limits.find "otp-cool:device:000102030405060708090a0b0c0d0e0f"
      ≠ state.world.db.limits.find "otp-cool:device:000102030405060708090a0b0c0d0e0f" := by
    rw [Option.isNone_iff_eq_none.mp before]
    exact Option.isSome_iff_ne_none.mp after
  obtain ⟨_, req, device, _, _, same, presented⟩ :=
    (buckets_isolated platform_sha256_injective reach performs changes).1
      "000102030405060708090a0b0c0d0e0f" (by decide)
  exact ⟨state, next, req, device, entry.thread, reach, changes, same, presented⟩

end WorkersAuth.DeviceAuth

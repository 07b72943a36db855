import WorkersAuth.DeviceAuth.Routes
import WorkersAuth.DeviceAuth.Twins

/-! What the routes share, at two sites that differ in dead rows only.
Most calls are answered alike, and so are the parts made of them. The few that are not (a device looked up, a
code consumed, devices revoked, a PIN replaced) are followed one by one: a live device and a reserved code are
found at both sites.
-/

namespace WorkersAuth

open Atomic DeviceAuth

variable {σ α β : Type} {platform : Platform} {sessions : Semantics SessionCall SessionCall.Reply σ}
  {longest codeTtlMs now : Millis}

-----------------------------------------------------------------------------------------
-- Rules
-----------------------------------------------------------------------------------------

namespace DeviceAuth

variable (platform sessions) in
/-- From sites related so, a part of a handler gives the same answer and leads to sites related so. -/
abbrev Mirrored (before : Site σ → Site σ → Prop) (part : Handler α) (after : Site σ → Site σ → Prop) : Prop :=
  part.Mirrors (siteExec platform sessions) before part (Program.Same after)

/-- Twins are twins at the moment their clocks show. -/
theorem mirrors_at {program : Handler α} {image : Handler β} {post : α → β → Site σ → Site σ → Prop}
    (mirrors : ∀ now, program.Mirrors (siteExec platform sessions) (TwinsAt longest codeTtlMs now) image post)
    : program.Mirrors (siteExec platform sessions) (Twins longest codeTtlMs) image post :=
  fun one two twins => mirrors one.now one two ⟨rfl, twins⟩

/-- What is answered alike at every moment is answered alike by twins. -/
theorem untimed_lockstep {op : Op} (oblivious : ∀ now, Oblivious longest codeTtlMs now op)
    : Program.Lockstep (siteExec platform sessions) (Twins longest codeTtlMs) op := by
  intro one two twins reply last executes
  obtain ⟨final, mirrored, still⟩ := oblivious_lockstep (oblivious one.now) one two ⟨rfl, twins⟩ reply last executes
  exact ⟨final, mirrored, still.2⟩

/-- A part whose calls are oblivious is run alike. -/
theorem mirrored_oblivious {part : Handler α} (within : part.Within (Oblivious longest codeTtlMs now))
    : Mirrored platform sessions (TwinsAt longest codeTtlMs now) part (TwinsAt longest codeTtlMs now) :=
  (within.mono (fun _ => oblivious_lockstep)).mirrors

/-- So is a part whose calls are oblivious at every moment. -/
theorem mirrored_untimed {part : Handler α}
    (within : part.Within (fun op => ∀ now, Oblivious longest codeTtlMs now op))
    : Mirrored platform sessions (Twins longest codeTtlMs) part (Twins longest codeTtlMs) :=
  (within.mono (fun _ => untimed_lockstep)).mirrors

/-- The clock is read, and the rest is run at the time it shows. -/
theorem mirrors_clock {rest : Millis → Handler α} {image : Millis → Handler β}
    {post : α → β → Site σ → Site σ → Prop}
    (later : ∀ read, (rest read).Mirrors (siteExec platform sessions) (TwinsAt longest codeTtlMs read)
      (image read) post)
    : (host.clock >>= rest).Mirrors (siteExec platform sessions) (Twins longest codeTtlMs)
        (host.clock >>= image) post :=
  mirrors_at (fun _ => clock_mirrors.bind_eq (fun _ _ _ _ => And.left)
    (fun read => (later read).of_related (fun _ _ held => held.2.2)))

/-- Twins at a moment are twins. -/
theorem mirrored_of_twins {part : Handler α} {after : Site σ → Site σ → Prop}
    (mirrored : Mirrored platform sessions (Twins longest codeTtlMs) part after)
    : Mirrored platform sessions (TwinsAt longest codeTtlMs now) part after :=
  mirrored.of_related (fun _ _ => And.right)

/-- An oblivious call, then the rest. -/
theorem mirrored_call {op : Op} (oblivious : Oblivious longest codeTtlMs now op) {rest : op.Reply → Handler α}
    {after : Site σ → Site σ → Prop}
    (later : ∀ reply, Mirrored platform sessions (TwinsAt longest codeTtlMs now) (rest reply) after)
    : Mirrored platform sessions (TwinsAt longest codeTtlMs now) (Program.perform op >>= rest) after :=
  ((Program.within_perform _ op).mpr (oblivious_lockstep oblivious)).mirrors_bind later

/-- A call that is oblivious at every moment, then the rest. -/
theorem mirrored_call_untimed {op : Op} (oblivious : ∀ now, Oblivious longest codeTtlMs now op)
    {rest : op.Reply → Handler α} {after : Site σ → Site σ → Prop}
    (later : ∀ reply, Mirrored platform sessions (Twins longest codeTtlMs) (rest reply) after)
    : Mirrored platform sessions (Twins longest codeTtlMs) (Program.perform op >>= rest) after :=
  ((Program.within_perform _ op).mpr (untimed_lockstep oblivious)).mirrors_bind later

/-- What is oblivious at every moment is run alike at a moment. -/
theorem mirrored_untimed_at {part : Handler α}
    (within : part.Within (fun op => ∀ now, Oblivious longest codeTtlMs now op))
    : Mirrored platform sessions (TwinsAt longest codeTtlMs now) part (TwinsAt longest codeTtlMs now) :=
  mirrored_oblivious (within.mono (fun _ oblivious => oblivious now))

/-- At the end it does not matter which moment it is. -/
theorem mirrored_any {part : Handler α}
    (mirrored : Mirrored platform sessions (TwinsAt longest codeTtlMs now) part (TwinsAt longest codeTtlMs now))
    : Mirrored platform sessions (TwinsAt longest codeTtlMs now) part (Twins longest codeTtlMs) :=
  mirrored.mono (fun _ _ _ _ held => ⟨held.1, held.2.2⟩)

/-- An answer. -/
theorem mirrored_answer {related : Site σ → Site σ → Prop} (answer : α)
    : Mirrored platform sessions related (.pure answer) related :=
  .answer (fun _ _ still => ⟨rfl, still⟩)

/-- An answer at a moment. -/
theorem mirrored_answer_at (answer : α)
    : Mirrored platform sessions (TwinsAt longest codeTtlMs now) (.pure answer) (Twins longest codeTtlMs) :=
  .answer (fun _ _ still => ⟨rfl, still.2⟩)

/-- A device is looked up: a live one is found by both twins. -/
theorem findDevice_mirrors (deviceId : String)
    : (store.findDevice deviceId).Mirrors (siteExec platform sessions) (TwinsAt longest codeTtlMs now)
        (store.findDevice deviceId)
        (fun found shown last final =>
          found.filter (Database.deviceLive now) = shown.filter (Database.deviceLive now)
          ∧ TwinsAt longest codeTtlMs now last final) := by
  intro one two twins found last run
  obtain ⟨rfl, same⟩ := twins
  obtain ⟨shown, final, mirrored, still, agree⟩ :=
    store_mirrored (.findDevice deviceId)
      (fun found shown =>
        found.filter (Database.deviceLive one.now) = shown.filter (Database.deviceLive one.now))
      (fun db ran => by
        obtain ⟨rfl, rfl⟩ := Prod.mk.inj (Option.some.inj ran)
        exact ⟨_, _, rfl, same.alike, same.alike.find_device deviceId⟩)
      trivial ⟨rfl, same⟩ (Program.evaluates_perform.mp run)
  exact ⟨shown, final, Program.evaluates_perform.mpr mirrored, agree, still⟩

end DeviceAuth

-----------------------------------------------------------------------------------------
-- Sessions
-----------------------------------------------------------------------------------------

/-- A device serves a session only while it is live. -/
theorem deviceServes_filter (found : Option DeviceRecord) (session : Session) {readAt : Millis}
    (late : now ≤ readAt)
    : deviceServes found session readAt
      = deviceServes (found.filter (Database.deviceLive now)) session readAt := by
  cases found with
  | none => rfl
  | some device =>
      rw [Option.filter_some]
      split
      · rfl
      · next dead =>
          rw [show deviceServes none session readAt = false from rfl, Bool.eq_false_iff]
          intro serves
          simp only [deviceServes, Bool.and_eq_true, decide_eq_true_eq] at serves
          refine dead ?_
          simp only [Database.deviceLive, Bool.and_eq_true, decide_eq_true_eq]
          exact ⟨⟨serves.1.1.2, late.trans_lt serves.1.2⟩, late.trans_lt serves.2⟩

/-- A device-bound session is served by both twins or by neither. -/
theorem deviceBoundGet_mirrored (sid : String)
    : Mirrored platform sessions (Twins longest codeTtlMs) (deviceBoundGet sid) (Twins longest codeTtlMs) := by
  unfold deviceBoundGet
  refine (mirrored_untimed (by simp [Oblivious])).bind_same (fun found => ?_)
  cases found with
  | none => exact mirrored_answer none
  | some session =>
      dsimp only
      split
      · exact mirrored_answer _
      · next deviceId bound =>
          refine mirrors_at (fun now => (findDevice_mirrors deviceId).bind (fun device shown => ?_))
          intro one two held
          obtain ⟨agree, twins⟩ := held
          refine (clock_mirrors.bind (fun read other => ?_)) one two twins
          intro first second reads
          obtain ⟨rfl, late, still⟩ := reads
          have same : deviceServes shown session read = deviceServes device session read := by
            rw [deviceServes_filter shown session late, ← agree, ← deviceServes_filter device session late]
          rw [same]
          refine (Program.Mirrors.of_related ?_ (fun _ _ => And.right)) first second still
          split
          · exact mirrored_answer _
          · exact (mirrored_untimed (by simp [Oblivious])).bind_same (fun _ => mirrored_answer none)

theorem storeGet_mirrored (store : StoreObject) (sid : String)
    : Mirrored platform sessions (Twins longest codeTtlMs) (store.get sid) (Twins longest codeTtlMs) := by
  cases store with
  | plain => exact mirrored_untimed (by simp [StoreObject.get, Oblivious])
  | deviceBound => exact deviceBoundGet_mirrored sid

theorem readCookieSession_mirrored (config : AuthConfig) (req : HttpRequest)
    : Mirrored platform sessions (Twins longest codeTtlMs) (readCookieSession config req)
        (Twins longest codeTtlMs) := by
  unfold readCookieSession
  split
  · exact mirrored_answer _
  · exact (storeGet_mirrored _ _).bind_same (fun _ => mirrored_answer _)

theorem readBearerSession_mirrored (store : StoreObject) (req : HttpRequest)
    : Mirrored platform sessions (Twins longest codeTtlMs) (readBearerSession store req)
        (Twins longest codeTtlMs) := by
  unfold readBearerSession
  split
  · exact mirrored_answer _
  · exact (storeGet_mirrored _ _).bind_same (fun _ => mirrored_answer _)

theorem previousSession_mirrored (config : AuthConfig) (req : HttpRequest) (options : CreateSessionOptions)
    : Mirrored platform sessions (Twins longest codeTtlMs) (previousSession config req options)
        (Twins longest codeTtlMs) := by
  unfold previousSession
  split
  · exact mirrored_answer _
  · exact mirrored_answer _
  · exact (readCookieSession_mirrored config req).bind_same (fun _ => mirrored_answer _)

theorem issueCookies_mirrored (config : AuthConfig) (bearer : Bool) (session : Session)
    : Mirrored platform sessions (Twins longest codeTtlMs) (issueCookies platform config bearer session)
        (Twins longest codeTtlMs) := by
  cases bearer with
  | true => exact mirrored_answer _
  | false =>
      refine mirrors_clock (fun read => mirrored_of_twins (mirrored_untimed ?_))
      simp [randomToken, setSessionCookies, Oblivious]

/-- A session is minted alike. -/
theorem createSessionFor_mirrored (config : AuthConfig) (req : HttpRequest) (user : AuthUser)
    (options : CreateSessionOptions)
    : Mirrored platform sessions (Twins longest codeTtlMs)
        (createSessionFor platform config req user options) (Twins longest codeTtlMs) := by
  unfold createSessionFor
  split
  · exact mirrored_answer _
  split
  · exact mirrored_answer _
  dsimp only
  split
  · exact mirrored_answer _
  refine (previousSession_mirrored config req options).bind_same (fun previous => ?_)
  refine (mirrored_untimed ?_).bind_same (fun _ => ?_)
  · cases previous <;> simp [revokePrevious, Oblivious]
  refine (mirrored_untimed (by simp [Oblivious])).bind_same (fun session => ?_)
  refine (issueCookies_mirrored config options.bearer session).bind_same (fun _ => ?_)
  exact (mirrored_untimed (by simp [Oblivious])).bind_same (fun _ => mirrored_answer _)

namespace DeviceAuth

variable {cfg : Config}

theorem mintSession_mirrored (req : HttpRequest) (user : AuthUser) (internal : InternalAuthMeta)
    : Mirrored platform sessions (Twins longest codeTtlMs) (mintSession platform cfg req user internal)
        (Twins longest codeTtlMs) := by
  unfold mintSession
  split
  · refine (createSessionFor_mirrored _ _ _ _).bind_same (fun minted => ?_)
    cases minted <;> exact mirrored_answer _
  · refine (createSessionFor_mirrored _ _ _ _).bind_same (fun minted => ?_)
    cases minted <;> exact mirrored_answer _

theorem gate_mirrored (req : HttpRequest)
    : Mirrored platform sessions (Twins longest codeTtlMs) (gate platform cfg req)
        (Twins longest codeTtlMs) := by
  unfold gate
  split
  · exact (readBearerSession_mirrored _ _).bind_same (fun _ => mirrored_answer _)
  · refine (readCookieSession_mirrored _ _).bind_same (fun current => ?_)
    split
    · exact (mirrored_untimed (by simp [Oblivious])).bind_same (fun _ => mirrored_answer _)
    · exact mirrored_answer _

-----------------------------------------------------------------------------------------
-- Parts whose calls are oblivious
-----------------------------------------------------------------------------------------

/-- Every window that is counted is at most this long. -/
structure Covers (longest : Millis) (cfg : Config) : Prop where
  failures : cfg.failureWindowSec * sec ≤ longest
  cooldown : cfg.limits.cooldownSec * sec ≤ longest
  hour : hourSec * sec ≤ longest
  breaker : ∀ breaker ∈ cfg.breaker, breaker.windowSec * sec ≤ longest

/-- The buckets of routes other than the breaker's. -/
theorem ipBucket_ne_cbBucket {action : String} (known : action ∈ ["otp-start", "otp-verify", "pin-login"])
    (ip : String)
    : ipBucket platform action ip ≠ cbBucket := by
  simp only [List.mem_cons, List.not_mem_nil, or_false] at known
  rcases known with rfl | rfl | rfl <;> simp [ipBucket, cbBucket, ← String.toList_inj]

theorem coolBucket_ne_cbBucket (send : String) : "otp-cool:" ++ send ≠ cbBucket := by
  simp [cbBucket, ← String.toList_inj]

theorem hourlyBucket_ne_cbBucket (send : String) : "otp-email:" ++ send ≠ cbBucket := by
  simp [cbBucket, ← String.toList_inj]

variable (cfg) in
theorem failureBucket_ne_cbBucket (emailKey : String) (device : Option DeviceRecord)
    : (budgetFor cfg emailKey device).failures ≠ cbBucket := by
  cases device <;> simp [budgetFor, cbBucket, ← String.toList_inj]

theorem rateLimited_oblivious {bucket scope : String} {windowSec : ℚ} {limit : Nat}
    (short : windowSec * sec ≤ longest) (own : bucket ≠ cbBucket)
    : (rateLimited bucket windowSec limit scope now).Within (Oblivious longest codeTtlMs now) := by
  unfold rateLimited
  refine .perform ⟨⟨rfl, short, own⟩, rfl⟩ (fun counted => ?_)
  dsimp only
  split
  · trivial
  · exact .perform trivial (fun _ => trivial)

theorem ipLimited_oblivious (covers : Covers longest cfg) {req : HttpRequest} {action scope : String} {limit : Nat}
    (known : action ∈ ["otp-start", "otp-verify", "pin-login"])
    : (ipLimited platform cfg req action limit scope now).Within (Oblivious longest codeTtlMs now) := by
  unfold ipLimited
  split
  · trivial
  · exact rateLimited_oblivious covers.hour (ipBucket_ne_cbBucket known _)

theorem botRefused_oblivious (action : BotCheckAction)
    : (botRefused cfg action).Within (fun op => ∀ now, Oblivious longest codeTtlMs now op) := by
  unfold botRefused
  split
  · trivial
  · refine .perform (fun _ => trivial) (fun passed => ?_)
    split
    · trivial
    · exact .perform (fun _ => trivial) (fun _ => trivial)

theorem issueCode_oblivious (email : String)
    : (issueCode platform cfg email now).Within (Oblivious longest cfg.codeTtlMs now) := by
  refine .perform trivial (fun code => .perform ⟨⟨rfl, rfl, rfl⟩, rfl⟩ (fun _ => ?_))
  exact .perform trivial (fun _ => .perform trivial (fun _ => trivial))

theorem checked_oblivious (covers : Covers longest cfg) (failed : Bool)
    : (checked cfg now failed).Within (Oblivious longest codeTtlMs now) := by
  unfold checked
  split
  · trivial
  · next breaker configured =>
      exact .perform ⟨⟨rfl, covers.breaker breaker configured, rfl⟩, rfl⟩ (fun _ => trivial)

theorem invalid_oblivious (covers : Covers longest cfg) (email reason : String)
    : (invalid platform cfg email now reason).Within (Oblivious longest codeTtlMs now) :=
  .perform trivial (fun _ => (checked_oblivious covers true).bind (fun _ => trivial))

theorem breakerRefused_oblivious (covers : Covers longest cfg)
    : (breakerRefused cfg now).Within (Oblivious longest codeTtlMs now) := by
  unfold breakerRefused
  split
  · trivial
  · next breaker configured =>
      refine .perform ⟨⟨rfl, covers.breaker breaker configured⟩, rfl⟩ (fun cb => ?_)
      split
      · exact .perform trivial (fun _ => trivial)
      · trivial

theorem setDeviceCookie_oblivious (token : String) (expiresAt moment : Millis)
    : (setDeviceCookie cfg token expiresAt moment).Within (Oblivious longest codeTtlMs now) := by
  unfold setDeviceCookie
  split
  · trivial
  · exact .perform trivial (fun _ => trivial)

theorem clearDeviceCookie_oblivious
    : (clearDeviceCookie cfg).Within (fun op => ∀ now, Oblivious longest codeTtlMs now op) := by
  unfold clearDeviceCookie
  split
  · trivial
  · exact .perform (fun _ => trivial) (fun _ => trivial)

theorem forgetSessionCookies_oblivious
    : (forgetSessionCookies cfg).Within (fun op => ∀ now, Oblivious longest codeTtlMs now op) := by
  unfold forgetSessionCookies
  split
  · trivial
  · exact .perform (fun _ => trivial) (fun _ => .perform (fun _ => trivial) (fun _ => trivial))

theorem revokeAllSessions_oblivious (userId reason : String)
    : (revokeAllSessions cfg userId reason).Within (fun op => ∀ now, Oblivious longest codeTtlMs now op) :=
  .perform (fun _ => trivial) (fun _ => .perform (fun _ => trivial) (fun _ => forgetSessionCookies_oblivious))

theorem onEventIf_oblivious (condition : Bool) (event : AuthEvent)
    : (host.onEventIf condition event).Within (fun op => ∀ now, Oblivious longest codeTtlMs now op) := by
  unfold host.onEventIf
  split
  · exact .perform (fun _ => trivial) (fun _ => trivial)
  · trivial

theorem revokeOwn_oblivious (session : Option Session)
    : (revokeOwn platform session).Within (fun op => ∀ now, Oblivious longest codeTtlMs now op) := by
  cases session with
  | none => trivial
  | some session => exact .perform (fun _ => trivial) (fun _ => .perform (fun _ => trivial) (fun _ => trivial))

theorem registerDevice_oblivious (user : AuthUser) (email : String) (label : Option String)
    : (registerDevice platform cfg user email label now).Within (Oblivious longest codeTtlMs now) := by
  refine .perform trivial (fun bytes => .perform trivial (fun secret => ?_))
  refine .perform ⟨trivial, rfl⟩ (fun _ => (setDeviceCookie_oblivious ..).bind (fun _ => ?_))
  exact .perform trivial (fun _ => trivial)

theorem enroll_oblivious {iterations : Nat} {pin : String} {keys : KeyRing}
    : (enroll platform iterations pin keys).Within (fun op => ∀ now, Oblivious longest codeTtlMs now op) := by
  refine .perform (fun _ => trivial) (fun salt => .perform (fun _ => trivial) (fun hash => ?_))
  split <;> trivial

theorem pinVerify_oblivious {iterations : Nat} {pin : String} {material : JsonObject} {keys : KeyRing}
    : (pinVerify platform iterations pin material keys).Within
        (fun op => ∀ now, Oblivious longest codeTtlMs now op) := by
  unfold pinVerify
  split
  · trivial
  split
  · trivial
  split
  · refine .perform (fun _ => trivial) (fun actual => ?_)
    split
    · trivial
    split
    · trivial
    split
    · refine enroll_oblivious.bind (fun upgraded => ?_)
      split <;> trivial
    · trivial
  · trivial

-----------------------------------------------------------------------------------------
-- Calls that may see dead rows
-----------------------------------------------------------------------------------------

/-- The device a token names is looked up, and is presented if it is live and the secret is its own. -/
theorem readDevice_parsed {req : HttpRequest} {deviceId secret : String}
    (parsed : parseDeviceToken ((presentedDeviceToken cfg req).getD "") = some (deviceId, secret))
    : readDevice platform cfg req now = do
        let found ← store.findDevice deviceId
        return (found.filter (Database.deviceLive now)).filter
          (fun device => verifySecretHash platform secret device.secretHash) := by
  unfold readDevice
  rw [parsed]
  refine congrArg (Program.call _) (funext (fun found => ?_))
  cases found with
  | none => rfl
  | some device =>
      change ite _ _ (ite _ _ (ite _ _ _))
        = Program.pure ((Option.filter (Database.deviceLive now) (some device)).filter
          (fun device => verifySecretHash platform secret device.secretHash))
      rw [Option.filter_filter, Option.filter_some]
      simp only [Database.deviceLive]
      split
      · next forged =>
          simp only [Bool.not_eq_true'] at forged
          simp [forged]
      split
      · next revoked => simp [Option.isSome_iff_ne_none.mp revoked]
      split
      · next dead =>
          rcases dead with idle | absolute
          · simp [idle]
          · simp [absolute]
      · next own unrevoked live =>
          rw [not_or, not_le, not_le] at live
          simp only [Bool.not_eq_true', Bool.not_eq_false] at own
          simp only [Option.isSome_iff_ne_none, ne_eq, not_not] at unrevoked
          simp [own, unrevoked, live]

theorem readDevice_mirrored (req : HttpRequest)
    : Mirrored platform sessions (TwinsAt longest codeTtlMs now) (readDevice platform cfg req now)
        (TwinsAt longest codeTtlMs now) := by
  cases parsed : parseDeviceToken ((presentedDeviceToken cfg req).getD "") with
  | none =>
      unfold readDevice
      rw [parsed]
      exact mirrored_answer none
  | some token =>
      rw [readDevice_parsed parsed]
      refine (findDevice_mirrors token.1).bind (fun found shown => Program.Mirrors.answer ?_)
      intro one two held
      exact ⟨by rw [held.1], held.2⟩

/-- A call of the store that can be made at both sites, whatever it answers. -/
theorem store_mirrors (call : StoreCall) {answer : Database → call.Reply × Database}
    (runs : ∀ db, call.run db = some (answer db)) (current : call.Current longest codeTtlMs now)
    (alike : ∀ first second, Alike longest now first second →
      Alike longest now (answer first).2 (answer second).2)
    : (Program.perform (Op.store call)).Mirrors (siteExec platform sessions) (TwinsAt longest codeTtlMs now)
        (Program.perform (Op.store call)) (fun _ _ => TwinsAt longest codeTtlMs now) := by
  intro one two twins reply last run
  obtain ⟨rfl, same⟩ := twins
  obtain ⟨shown, final, mirrored, still, _⟩ :=
    store_mirrored call (fun _ _ => True)
      (fun db ran => by
        obtain rfl : (answer one.world.db).2 = db :=
          congrArg Prod.snd (Option.some.inj ((runs _).symm.trans ran))
        exact ⟨(answer two.world.db).1, (answer two.world.db).2, runs _, alike _ _ same.alike, trivial⟩)
      current ⟨rfl, same⟩ (Program.evaluates_perform.mp run)
  exact ⟨shown, final, Program.evaluates_perform.mpr mirrored, still⟩

/-- Devices are revoked at both sites, though one may count dead ones. -/
theorem revokeDevice_mirrors (accountId deviceId : String) (moment : Millis)
    : (store.revokeDevice accountId deviceId moment).Mirrors (siteExec platform sessions)
        (Twins longest codeTtlMs) (store.revokeDevice accountId deviceId moment)
        (fun _ _ => Twins longest codeTtlMs) :=
  mirrors_at (fun _ =>
    (store_mirrors (.revokeDevice accountId deviceId moment) (fun _ => rfl) trivial
      (fun _ _ alike => revokeDevice_alike alike ..)).mono (fun _ _ _ _ => And.right))

theorem revokeAllDevices_mirrors (accountId : String) (moment : Millis) (exceptDeviceId : Option String)
    : (store.revokeAllDevices accountId moment exceptDeviceId).Mirrors (siteExec platform sessions)
        (Twins longest codeTtlMs) (store.revokeAllDevices accountId moment exceptDeviceId)
        (fun _ _ => Twins longest codeTtlMs) :=
  mirrors_at (fun _ =>
    (store_mirrors (.revokeAllDevices accountId moment exceptDeviceId) (fun _ => rfl) trivial
      (fun _ _ alike => revokeAllDevices_alike alike ..)).mono (fun _ _ _ _ => And.right))

/-- A PIN is replaced at both sites, though one may count dead devices. -/
theorem replaceCredential_mirrors (record : CredentialRecord) (options : ReplaceCredentialOptions)
    : (store.replaceCredential record options).Mirrors (siteExec platform sessions)
        (Twins longest codeTtlMs) (store.replaceCredential record options)
        (fun result shown last final =>
          shown.replaced = result.replaced ∧ Twins longest codeTtlMs last final) := by
  intro one two twins result last run
  have executes := Program.evaluates_perform.mp run
  obtain ⟨shown, final, mirrored, still, agree⟩ :=
    store_mirrored (.replaceCredential record options)
      (fun result shown => shown.replaced = result.replaced)
      (fun db ran => by
        have free : two.world.db.creds.find record.credentialId = none := by
          by_contra taken
          obtain ⟨row, found⟩ := Option.ne_none_iff_exists'.mp taken
          exact executes.2.2.1 _ List.mem_cons_self (twins.secondSound.credentials _ _ found)
        obtain ⟨shown, image, mirrored, agree, alike⟩ := replaceCredential_alike twins.alike ran free
        exact ⟨shown, image, mirrored, alike, agree⟩)
      trivial ⟨rfl, twins⟩ executes
  exact ⟨shown, final, Program.evaluates_perform.mpr mirrored, agree, still.2⟩

/-- Of both sites: the code that was reserved is there and has not expired. -/
def Reserved (longest codeTtlMs now : Millis) (email codeHash : String) (first second : Site σ) : Prop :=
  TwinsAt longest codeTtlMs now first second
  ∧ HasCode now email codeHash first.world.db ∧ HasCode now email codeHash second.world.db

/-- An attempt is reserved at both sites or at neither, and the code stays until it is consumed. -/
theorem reserveEmailCodeAttempt_mirrors (email : String) (maxAttempts : Nat)
    : (store.reserveEmailCodeAttempt email now maxAttempts).Mirrors (siteExec platform sessions)
        (TwinsAt longest codeTtlMs now) (store.reserveEmailCodeAttempt email now maxAttempts)
        (fun reply shown last final => reply = shown ∧ TwinsAt longest codeTtlMs now last final
          ∧ ∀ reserved ∈ reply, Reserved longest codeTtlMs now email reserved.codeHash last final) := by
  intro one two twins reply last run
  have executes := Program.evaluates_perform.mp run
  have lockstep : Program.Lockstep (siteExec platform sessions) (TwinsAt longest codeTtlMs now)
      (.store (.reserveEmailCodeAttempt email now maxAttempts)) :=
    oblivious_lockstep ⟨rfl, rfl⟩
  obtain ⟨final, mirrored, still⟩ := lockstep one two twins reply last executes
  refine ⟨reply, final, Program.evaluates_perform.mpr mirrored, rfl, still, fun reserved granted => ?_⟩
  have ran := Option.some.inj executes.1.1
  have has : HasCode now email reserved.codeHash last.world.db := by
    rw [← show _ = last.world.db from congrArg Prod.snd ran]
    exact hasCode_of_reserved ((congrArg Prod.fst ran).trans granted)
  exact ⟨still, has, has.alike (still.1 ▸ still.2.alike)⟩

/-- It is consumed at both. -/
theorem consumeEmailCode_mirrors (email codeHash : String)
    : (store.consumeEmailCode email codeHash).Mirrors (siteExec platform sessions)
        (Reserved longest codeTtlMs now email codeHash) (store.consumeEmailCode email codeHash)
        (fun consumed shown last final =>
          consumed = shown ∧ consumed = true ∧ TwinsAt longest codeTtlMs now last final) := by
  intro one two held consumed last run
  obtain ⟨twins, first, second⟩ := held
  obtain ⟨shown, final, mirrored, still⟩ :=
    store_mirrors (.consumeEmailCode email codeHash) (fun _ => rfl) trivial
      (fun _ _ alike => consumeEmailCode_alike alike email codeHash) one two twins consumed last run
  have answered {site after : Site σ} {reply : Bool} (has : HasCode now email codeHash site.world.db)
      (run : Program.Evaluates (siteExec platform sessions) (store.consumeEmailCode email codeHash)
        site reply after)
      : reply = true := by
    have ran := Option.some.inj (Program.evaluates_perform.mp run).1.1
    exact (congrArg Prod.fst ran).symm.trans (consumed_of_hasCode has)
  have consumes := answered first run
  exact ⟨shown, final, mirrored, consumes.trans (answered second mirrored).symm, consumes, still⟩

end DeviceAuth

end WorkersAuth

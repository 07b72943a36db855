import WorkersAuth.Atomic.Journal
import WorkersAuth.DeviceAuth.Deployment
import WorkersAuth.DeviceAuth.Devices
import WorkersAuth.DeviceAuth.LoginGuard

/-! What a PIN login that is let in rests on.
A login makes its calls one by one while other requests change the same tables. Its journal
records what each call answered, and each answer says how the tables were at that moment.
-/

namespace WorkersAuth

open Atomic Counters DeviceAuth

/-- A session created so is bound to the device and carries no email verification. -/
def NewSession.BoundTo (input : NewSession) (deviceId : String) : Prop :=
  ∀ session : Session, session.metadata = input.metadata
    → sessionBoundDeviceId session = some deviceId ∧ emailVerifiedAt session = none

/-- A session minted for a device alone is bound to it. -/
theorem newSession_boundTo (config : AuthConfig) (user : AuthUser) {options : CreateSessionOptions}
    (ttl : SessionLifetime) {deviceId : String} (internal : options.internal = { deviceId := some deviceId })
    : (newSession config user options ttl).BoundTo deviceId := by
  intro session same
  have field (name : String)
      : authMetaField session name = JsonObject.get (newAuthMeta config user options) name := by
    simp only [authMetaField, authMeta, same, newSession, Option.bind_some, JsonObject.get_set_self]
    rfl
  simp [sessionBoundDeviceId, emailVerifiedAt, field, newAuthMeta, internal, Json.string?]

namespace DeviceAuth

variable (platform : Platform) (cfg : Config)

-----------------------------------------------------------------------------------------
-- The evidence of a login
-----------------------------------------------------------------------------------------

/-- What a login presented and what its calls answered. -/
structure LoginEvidence where
  deviceId : String
  secret : String
  pin : String
  now : Millis
  device : DeviceRecord
  credential : CredentialRecord
  failedCount : Nat
  user : AuthUser
  idleExpiresAt : Millis
  input : NewSession
  session : Session

/-- The calls a login that is let in has made. -/
def LoginEvidence.calls (evidence : LoginEvidence) : List (Call Op Op.Reply) :=
  let { deviceId, now, device, credential, failedCount, user, idleExpiresAt, input, session, .. } :=
    evidence
  [
    ⟨.host .clock, now⟩,
    ⟨.store (.findDevice deviceId), some device⟩,
    ⟨.store (.getActiveCredential device.accountId .pin), some credential⟩,
    ⟨.store (.reserveLoginAttempt device.accountId cfg.pinMaxAttempts now), some failedCount⟩,
    ⟨.host (.resolveUser device.email), some user⟩,
    ⟨.store (.touchDevice device.deviceId now (now + cfg.deviceIdleMs)), some idleExpiresAt⟩,
    ⟨.session (.create input), session⟩
  ]

/-- What the login has checked itself. -/
structure LoginEvidence.Checked (req : HttpRequest) (evidence : LoginEvidence) : Prop where
  token : parseDeviceToken ((presentedDeviceToken cfg req).getD "")
    = some (evidence.deviceId, evidence.secret)
  secret : sha256Hex platform evidence.secret = evidence.device.secretHash
  live : Database.deviceLive evidence.now evidence.device
  pin : isPinFormat (req.field "pin") = some evidence.pin
  right : PinMatches platform (cfg.keys platform) evidence.pin evidence.credential.material
  resolved : evidence.user.id = evidence.device.accountId
  owner : evidence.input.userId = evidence.device.accountId
  bound : evidence.input.BoundTo evidence.deviceId

/-- The answer names the user that was resolved. -/
def LoginEvidence.Answers (evidence : LoginEvidence) (response : Response) : Prop :=
  ∃ claims fields,
    response = okResponse (("user", userJson { evidence.user with claims }) :: fields)

/-- A login that answers 200 has all of it in its journal. -/
def LetIn (journal : Journal Op Op.Reply Request) (response : Response) : Prop :=
  ∀ req, journal.request = .pinLogin req → response.status = 200
    → ∃ evidence : LoginEvidence,
        evidence.Checked platform cfg req ∧ evidence.Answers response
        ∧ ∀ call ∈ evidence.calls cfg, call ∈ journal.history

/-- A login mints sessions bound to the device it presents, and no others. -/
def mintProtocol (journal : Journal Op Op.Reply Request) : Op → Prop
  | .session (.create input) =>
      ∀ req, journal.request = .pinLogin req
        → ∃ deviceId secret, parseDeviceToken ((presentedDeviceToken cfg req).getD "")
            = some (deviceId, secret) ∧ input.BoundTo deviceId
  | _ => True

/-- Replies that can be relied on: the platform's, and a device found is the one sought. -/
def Replies : (op : Op) → op.Reply → Prop
  | .host call, reply => call.Answers platform reply
  | .store (.findDevice deviceId), found => ∀ device ∈ found, device.deviceId = deviceId
  | _, _ => True

abbrev mintMonitor : Monitor Op Op.Reply (Journal Op Op.Reply Request) :=
  .journal (mintProtocol cfg) (Replies platform)

variable {platform cfg} {journal : Journal Op Op.Reply Request} {req : HttpRequest}
  {calls : List (Call Op Op.Reply)}

/-- Incidental calls mint nothing. -/
theorem mintProtocol_incidental (journal : Journal Op Op.Reply Request) {op : Op}
    (incidental : op.Incidental)
    : mintProtocol cfg journal op := by
  rcases op with call | call | call
  · trivial
  · cases call <;> first | exact incidental.elim | trivial
  · trivial

/-- A refused login is not let in. -/
theorem letIn_of_refusal {response : Response} (refusal : Refusal response)
    : LetIn platform cfg journal response :=
  fun _ _ success => absurd success refusal

-----------------------------------------------------------------------------------------
-- The parts of a login
-----------------------------------------------------------------------------------------

/-- An incidental part of a login, then the rest. -/
theorem login_plumbing {α β : Type} {part : Handler β} {rest : β → Handler α}
    {post : Journal Op Op.Reply Request → α → Prop} (within : part.Within Op.Incidental)
    (knows : journal.Knows (.pinLogin req) calls)
    (later : ∀ answer next, Journal.Knows (.pinLogin req) calls next
      → (rest answer).Obeys (mintMonitor platform cfg) post next)
    : (part >>= rest).Obeys (mintMonitor platform cfg) post journal :=
  within.obeys_journal (fun journal _ _ => mintProtocol_incidental journal) knows later

/-- The presented device was looked up under its token's id, owns the token's secret and was
live at the clock's reading.
-/
theorem readDevice_login {now : Millis} (knows : journal.Knows (.pinLogin req) calls)
    : (readDevice platform cfg req now).Obeys (mintMonitor platform cfg)
        (fun next answer => Journal.Knows (.pinLogin req) calls next
          ∧ ∀ device, answer = some device → ∃ secret,
            Journal.Knows (.pinLogin req)
              (⟨.store (.findDevice device.deviceId), some device⟩ :: calls) next
            ∧ parseDeviceToken ((presentedDeviceToken cfg req).getD "")
              = some (device.deviceId, secret)
            ∧ sha256Hex platform secret = device.secretHash
            ∧ Database.deviceLive now device) journal := by
  unfold readDevice
  split
  · exact .answer ⟨knows, fun _ none_ => absurd none_ nofun⟩
  next deviceId secret parsed =>
  refine .perform trivial (fun found sought => ?_)
  have added := knows.add (.store (.findDevice deviceId)) found
  have kept := knows.write (.store (.findDevice deviceId)) found
  cases found with
  | none => exact .answer ⟨kept, fun _ none_ => absurd none_ nofun⟩
  | some device =>
      simp only
      split
      · exact .answer ⟨kept, fun _ none_ => absurd none_ nofun⟩
      next verified =>
      split
      · exact .answer ⟨kept, fun _ none_ => absurd none_ nofun⟩
      next unrevoked =>
      split
      · exact .answer ⟨kept, fun _ none_ => absurd none_ nofun⟩
      next unexpired =>
      refine ⟨kept, fun _ same => ?_⟩
      cases same
      simp only [not_or, not_le, Bool.not_eq_true', Bool.not_eq_false, verifySecretHash_iff,
        Option.not_isSome_iff_eq_none] at verified unrevoked unexpired
      obtain rfl : device.deviceId = deviceId := sought device rfl
      refine ⟨secret, added, parsed, verified, ?_⟩
      simp [Database.deviceLive, unrevoked, unexpired]

/-- A session minted for the device alone is bound to it, and is in the journal. -/
theorem createSessionFor_login {http : HttpRequest} {user : AuthUser}
    {options : CreateSessionOptions} {deviceId secret : String}
    (internal : options.internal = { deviceId := some deviceId })
    (parsed : parseDeviceToken ((presentedDeviceToken cfg req).getD "") = some (deviceId, secret))
    (knows : journal.Knows (.pinLogin req) calls)
    : (createSessionFor platform cfg.auth http user options).Obeys (mintMonitor platform cfg)
        (fun next answer => ∀ session, answer = .ok session → ∃ input : NewSession,
          Journal.Knows (.pinLogin req) (⟨.session (.create input), session⟩ :: calls) next
          ∧ input.BoundTo deviceId ∧ input.userId = user.id) journal := by
  unfold createSessionFor
  split
  · exact .answer (fun _ failed => absurd failed nofun)
  split
  · exact .answer (fun _ failed => absurd failed nofun)
  dsimp only
  split
  · exact .answer (fun _ failed => absurd failed nofun)
  refine login_plumbing (previousSession_incidental ..) knows (fun previous journal knows => ?_)
  refine login_plumbing ?_ knows (fun _ journal knows => ?_)
  · cases previous <;> simp [revokePrevious, Op.Incidental]
  have bound := newSession_boundTo cfg.auth user (options.ttl.getD cfg.auth.session) internal
  refine .recall knows ?_ (fun session journal _ knows => ?_)
  · intro other same
    cases knows.request_eq.symm.trans same
    exact ⟨deviceId, secret, parsed, bound⟩
  refine login_plumbing (issueCookies_incidental ..) knows (fun _ journal knows => ?_)
  refine .perform trivial (fun _ _ => ?_)
  rintro _ ⟨⟩
  exact ⟨_, knows.write _ _, bound, rfl⟩

/-- What the handler mints in either transport is such a session. -/
theorem mintSession_login {user : AuthUser} {deviceId secret : String}
    (parsed : parseDeviceToken ((presentedDeviceToken cfg req).getD "") = some (deviceId, secret))
    (knows : journal.Knows (.pinLogin req) calls)
    : (mintSession platform cfg req user { deviceId := some deviceId }).Obeys
        (mintMonitor platform cfg)
        (fun next answer => ∀ fields, answer = .ok fields → ∃ (input : NewSession) (session : Session),
          Journal.Knows (.pinLogin req) (⟨.session (.create input), session⟩ :: calls) next
          ∧ input.BoundTo deviceId ∧ input.userId = user.id) journal := by
  unfold mintSession
  split
  · refine (createSessionFor_login rfl parsed knows).bind (fun next minted kept => ?_)
    cases minted with
    | error message => exact .answer (fun _ failed => absurd failed nofun)
    | ok session =>
        obtain ⟨input, recorded⟩ := kept session rfl
        exact fun _ _ => ⟨input, session, recorded⟩
  · refine (createSessionFor_login rfl parsed knows).bind (fun next minted kept => ?_)
    cases minted with
    | error message => exact .answer (fun _ failed => absurd failed nofun)
    | ok session =>
        obtain ⟨input, recorded⟩ := kept session rfl
        exact fun _ _ => ⟨input, session, recorded⟩

/-- From the right PIN on, a login that is let in has resolved the user of the device and
touched the device, and mints a session for it.
-/
theorem signIn_evidence {pin secret : String} {now : Millis} {device : DeviceRecord}
    {credential : CredentialRecord} {failedCount : Nat} {upgraded : Option JsonObject}
    (parsed : parseDeviceToken ((presentedDeviceToken cfg req).getD "") = some (device.deviceId, secret))
    (owns : sha256Hex platform secret = device.secretHash) (live : Database.deviceLive now device)
    (pin_eq : isPinFormat (req.field "pin") = some pin)
    (right : PinMatches platform (cfg.keys platform) pin credential.material)
    (knows : journal.Knows (.pinLogin req) [
      ⟨.store (.reserveLoginAttempt device.accountId cfg.pinMaxAttempts now), some failedCount⟩,
      ⟨.store (.getActiveCredential device.accountId .pin), some credential⟩,
      ⟨.store (.findDevice device.deviceId), some device⟩,
      ⟨.host .clock, now⟩
    ])
    : (signIn platform cfg req device credential upgraded now).Obeys (mintMonitor platform cfg)
        (LetIn platform cfg) journal := by
  have refused {next : Journal Op Op.Reply Request} : LetIn platform cfg next emailVerificationRequired :=
    letIn_of_refusal (by decide)
  refine .perform trivial (fun _ _ => ?_)
  refine .recall (knows.write _ _) trivial (fun resolved journal _ knows => ?_)
  split
  · exact .perform trivial (fun _ _ => refused)
  next user accepted =>
  obtain ⟨checked, same⟩ := Option.filter_eq_some_iff.mp accepted
  obtain ⟨rfl, _⟩ := Option.filter_eq_some_iff.mp checked
  refine .recall knows trivial (fun touched journal _ knows => ?_)
  cases touched with
  | none => exact .perform trivial (fun _ _ => refused)
  | some idleExpiresAt =>
  refine login_plumbing (setDeviceCookie_incidental ..) knows (fun _ journal knows => ?_)
  refine (mintSession_login parsed knows).bind (fun journal minted kept => ?_)
  cases minted with
  | error message => exact letIn_of_refusal (by decide)
  | ok fields =>
      obtain ⟨input, session, knows, bound, owner⟩ := kept fields rfl
      refine .perform trivial (fun _ _ other logs _ => ?_)
      have knows := knows.write (.host (.onEvent (.pinLoginSucceeded device.accountId device.deviceId))) ()
      cases knows.request_eq.symm.trans logs
      have same : user.id = device.accountId := by simpa using same
      refine ⟨⟨device.deviceId, secret, pin, now, device, credential, failedCount, user,
        idleExpiresAt, input, session⟩, ⟨parsed, owns, live, pin_eq, right, same, owner.trans same,
        bound⟩, ⟨_, _, rfl⟩, fun call member => knows.recorded call ?_⟩
      simp only [LoginEvidence.calls, List.mem_cons, List.not_mem_nil, or_false] at member ⊢
      tauto

/-- From the live device on, a login that is let in has loaded the credential and been
granted an attempt before its PIN was verified.
-/
theorem attemptPin_evidence {pin secret : String} {now : Millis} {device : DeviceRecord}
    (parsed : parseDeviceToken ((presentedDeviceToken cfg req).getD "") = some (device.deviceId, secret))
    (owns : sha256Hex platform secret = device.secretHash) (live : Database.deviceLive now device)
    (pin_eq : isPinFormat (req.field "pin") = some pin)
    (knows : journal.Knows (.pinLogin req)
      [⟨.store (.findDevice device.deviceId), some device⟩, ⟨.host .clock, now⟩])
    : (attemptPin platform cfg req pin device now).Obeys (mintMonitor platform cfg)
        (LetIn platform cfg) journal := by
  have refused {next : Journal Op Op.Reply Request} : LetIn platform cfg next emailVerificationRequired :=
    letIn_of_refusal (by decide)
  refine .recall knows trivial (fun loaded journal _ knows => ?_)
  cases loaded with
  | none => exact .perform trivial (fun _ _ => refused)
  | some credential =>
  refine .recall knows trivial (fun granted journal _ knows => ?_)
  cases granted with
  | none => exact .perform trivial (fun _ _ => refused)
  | some failedCount =>
  refine (pinVerify_obeys (fun _ => True) (fun next => Journal.Knows (.pinLogin req) [
        ⟨.store (.reserveLoginAttempt device.accountId cfg.pinMaxAttempts now), some failedCount⟩,
        ⟨.store (.getActiveCredential device.accountId .pin), some credential⟩,
        ⟨.store (.findDevice device.deviceId), some device⟩,
        ⟨.host .clock, now⟩
      ] next ∧ PinMatches platform (cfg.keys platform) pin credential.material)
    (fun _ _ possible => possible) (fun _ => trivial)
    (fun pepperKey salt iterations actual => ⟨trivial, fun _ => trivial, fun matching =>
      ⟨⟨knows.write _ _, matching⟩, ?_⟩⟩)).bind (fun next result outcome => ?_)
  · refine .perform trivial (fun _ _ => .perform trivial (fun hash _ => ?_))
    cases hash <;> exact ⟨((knows.write _ _).write _ _).write _ _, matching⟩
  · cases result with
    | none => exact letIn_of_refusal (by decide)
    | some verified =>
        cases verified with
        | refused =>
            refine .perform trivial (fun _ _ => ?_)
            split
            · exact .perform trivial (fun _ _ => .perform trivial (fun _ _ => refused))
            · exact letIn_of_refusal (by simp [Refusal])
        | ok upgraded =>
            obtain ⟨knows, matching⟩ := outcome.2 upgraded rfl
            refine .perform trivial (fun _ _ => ?_)
            exact signIn_evidence parsed owns live pin_eq matching (knows.write _ _)

/-- `POST /pin/login` lets in only with all the evidence. -/
theorem pinLogin_evidence (req : HttpRequest)
    : (pinLogin platform cfg req).Obeys (mintMonitor platform cfg) (LetIn platform cfg)
        ⟨.pinLogin req, []⟩ := by
  have quiet {op : Op} (allowed : preludeCalls false op) (journal : Journal Op Op.Reply Request)
      : mintProtocol cfg journal op := by
    rcases op with call | call | call
    · trivial
    · cases call <;> first | exact allowed.elim | trivial
    · trivial
  have skips : Skips (mintMonitor platform cfg) false (Journal.Knows (.pinLogin req) [])
      (fun now => Journal.Knows (.pinLogin req) [⟨.host .clock, now⟩]) :=
    ⟨fun journal op knows allowed => ⟨quiet allowed journal, fun reply => Journal.Knows.write knows op reply⟩,
      fun journal now knows => Journal.Knows.add knows (.host .clock) now,
      fun journal op now _ knows _ reply => Journal.Knows.write knows op reply⟩
  refine pinLogin_obeys platform cfg req skips ⟨rfl, by simp⟩
    (fun _ _ _ refusal => letIn_of_refusal refusal) (fun journal pin now _ knows pin_eq => ?_)
  refine (readDevice_login knows).bind (fun journal presented found => ?_)
  cases presented with
  | none => exact .perform trivial (fun _ _ => letIn_of_refusal (by decide))
  | some device =>
      obtain ⟨secret, knows, parsed, owns, live⟩ := found.2 device rfl
      exact attemptPin_evidence parsed owns live pin_eq knows

/-- Every request keeps to the protocol; all but PIN logins trivially, by cases on the route. -/
theorem handle_evidence (request : Request)
    : (handle platform cfg request).Obeys (mintMonitor platform cfg) (LetIn platform cfg)
        ⟨request, []⟩ := by
  by_cases logs : ∃ req, request = .pinLogin req
  · obtain ⟨req, rfl⟩ := logs
    exact pinLogin_evidence req
  · refine ((handle_within platform cfg request).obeys_keeps (Journal.Knows request [])
      (fun journal op knows _ => ⟨?_, fun reply => Journal.Knows.write knows op reply⟩)
      ⟨rfl, by simp⟩).mono ?_
    · rcases op with call | call | call
      · trivial
      · cases call <;> first | trivial | skip
        exact fun req same => absurd ⟨req, knows.request_eq.symm.trans same⟩ logs
      · trivial
    · exact fun journal response knows req same _ =>
        absurd ⟨req, Journal.Knows.request_eq knows |>.symm.trans same⟩ logs

-----------------------------------------------------------------------------------------
-- In every run
-----------------------------------------------------------------------------------------

variable {σ : Type} {sessions : Semantics SessionCall SessionCall.Reply σ} {world : World σ}
  {pool later : Pool Op Op.Reply (World σ) Request Response}

theorem mintMonitor_faithful
    : (deviceAuth platform cfg sessions).Faithful (mintMonitor platform cfg) := by
  intro op before reply after executes
  rcases op with call | call | call
  · cases call <;> first | trivial | skip
    intro device found
    obtain ⟨same, _⟩ := Prod.mk.inj (Option.some.inj executes.1)
    exact Tables.Table.key_of_find (same.trans found)
  · trivial
  · exact executes.1

/-- A stored device stays what it was registered as, by induction on the run. -/
theorem sameDevice_run (run : (deviceAuth platform cfg sessions).Run pool later) {deviceId : String}
    {row : DeviceRecord} (found : pool.world.db.devices.find deviceId = some row)
    : ∃ after, later.world.db.devices.find deviceId = some after ∧ SameDevice row after := by
  induction run with
  | refl => exact ⟨row, found, .refl row⟩
  | @tail middle _ _ step ih =>
      obtain ⟨current, there, same⟩ := ih
      cases step with
      | arrive request => exact ⟨current, there, same⟩
      | @perform entry _ performs =>
          have executes := performs.executes
          obtain ⟨thread, op, reply⟩ := entry
          rcases op with call | call | call
          · have moved := StoreCall.device_move executes.1 deviceId
            rw [there] at moved
            obtain ⟨after, found, again⟩ := moved.same
            exact ⟨after, found, same.trans again⟩
          · exact ⟨current, executes.2 ▸ there, same⟩
          · exact ⟨current, executes.2 ▸ there, same⟩

/-- What is true of a PIN login that answered 200. The device was live when it was read and
when it was touched; the credential was live when it was loaded, and no other PIN derives
its hash; the attempt was granted by an open guard; and every session it mints is bound to
the device and unverified.
-/
structure LoginSound (platform : Platform) (cfg : Config)
    (sessions : Semantics SessionCall SessionCall.Reply σ) (world : World σ)
    (pool : Pool Op Op.Reply (World σ) Request Response) (index : Nat) (req : HttpRequest)
    (response : Response) (evidence : LoginEvidence)
    : Prop where
  checked : evidence.Checked platform cfg req
  answers : evidence.Answers response
  thePin : ∀ other, isDigits 6 other
    → PinMatches platform (cfg.keys platform) other evidence.credential.material
    → other = evidence.pin
  clock : ⟨.host .clock, evidence.now⟩ ∈ pool.history index
  read : (deviceAuth platform cfg sessions).MadeWhen world pool index
    ⟨.store (.findDevice evidence.deviceId), some evidence.device⟩
    (fun world => world.db.devices.find evidence.deviceId = some evidence.device)
  loaded : (deviceAuth platform cfg sessions).MadeWhen world pool index
    ⟨.store (.getActiveCredential evidence.device.accountId .pin), some evidence.credential⟩
    (fun world => ∃ row ∈ world.db.creds.rows, row.toCredentialRecord = evidence.credential
      ∧ row.accountId = evidence.device.accountId ∧ row.type = .pin ∧ row.revokedAt = none)
  granted : (deviceAuth platform cfg sessions).MadeWhen world pool index
    ⟨.store (.reserveLoginAttempt evidence.device.accountId cfg.pinMaxAttempts evidence.now),
      some evidence.failedCount⟩
    (fun world => ∀ guard ∈ world.db.guard evidence.device.accountId,
      guard.failed < cfg.pinMaxAttempts ∧ guard.lockedAt = none)
  resolved : ⟨.host (.resolveUser evidence.device.email), some evidence.user⟩ ∈ pool.history index
  touched : (deviceAuth platform cfg sessions).MadeWhen world pool index
    ⟨.store (.touchDevice evidence.deviceId evidence.now (evidence.now + cfg.deviceIdleMs)),
      some evidence.idleExpiresAt⟩
    (fun world => ∃ row, world.db.devices.find evidence.deviceId = some row
      ∧ SameDevice evidence.device row ∧ Database.deviceLive evidence.now row)
  minted : ⟨.session (.create evidence.input), evidence.session⟩ ∈ pool.history index
  mints : ∀ input session, ⟨.session (.create input), session⟩ ∈ pool.history index
    → input.BoundTo evidence.deviceId

/-- A credential that is loaded is one of the account's that has not been revoked. -/
theorem getActiveCredential_eq_some {db : Database} {accountId : String} {type : CredentialType}
    {credential : CredentialRecord}
    (loaded : db.getActiveCredential accountId type = some credential)
    : ∃ row ∈ db.creds.rows, row.toCredentialRecord = credential ∧ row.accountId = accountId
      ∧ row.type = type ∧ row.revokedAt = none := by
  obtain ⟨row, newest, same⟩ := Option.map_eq_some_iff.mp loaded
  have member := List.mem_of_head? newest
  rw [List.mem_insertionSort, List.mem_filter] at member
  obtain ⟨stored, active⟩ := member
  simp only [Database.activeCredential, Bool.and_eq_true, decide_eq_true_eq,
    Option.isNone_iff_eq_none] at active
  exact ⟨row, stored, same, active.1.1, active.1.2, active.2⟩

/-- A device that is touched is stored and live. -/
theorem touchDevice_eq_some {db after : Database} {deviceId : String}
    {now idleExpiresAt touched : Millis}
    (ran : db.touchDevice deviceId now idleExpiresAt = (some touched, after))
    : ∃ row, db.devices.find deviceId = some row ∧ Database.deviceLive now row := by
  obtain ⟨_, answered, _⟩ := Option.map_eq_some_iff.mp (congrArg Prod.fst ran)
  obtain ⟨row, selected, _⟩ := Option.map_eq_some_iff.mp answered
  exact ⟨row, Option.filter_eq_some_iff.mp selected⟩

/-- An injective derivation lets one PIN only match a credential. -/
theorem pin_unique
    (injective : ∀ key salt iterations hash first second, isDigits 6 first → isDigits 6 second
      → platform.pbkdf2 (platform.hmac key first) salt iterations = some hash
      → platform.pbkdf2 (platform.hmac key second) salt iterations = some hash
      → first = second)
    {keys : KeyRing} {first second : String} {material : JsonObject}
    (first_digits : isDigits 6 first) (second_digits : isDigits 6 second)
    (first_matches : PinMatches platform keys first material)
    (second_matches : PinMatches platform keys second material)
    : first = second := by
  obtain ⟨stored, derived, salt, hash, read, known, salt_eq, hash_eq, equal⟩ := first_matches
  rw [pinMatches_iff _ read known salt_eq hash_eq] at second_matches
  exact injective _ _ _ _ _ _ first_digits second_digits equal second_matches

/-- A PIN login that answers 200 is sound, in every run: everything it relied on was so at
the moment it was asked.
-/
theorem pinLogin_sound
    (injective : ∀ key salt iterations hash first second, isDigits 6 first → isDigits 6 second
      → platform.pbkdf2 (platform.hmac key first) salt iterations = some hash
      → platform.pbkdf2 (platform.hmac key second) salt iterations = some hash
      → first = second)
    (reach : (deviceAuth platform cfg sessions).Reachable world pool) {index : Nat}
    {req : HttpRequest} {response : Response}
    (answered : pool.threads[index]? = some ⟨.pinLogin req, .pure response⟩)
    (success : response.status = 200)
    : ∃ evidence, LoginSound platform cfg sessions world pool index req response evidence := by
  have obeying := reach.obeys mintMonitor_faithful handle_evidence
    ⟨.pinLogin req, pool.history index, .pure response⟩
    (List.mem_of_getElem? (by rw [Service.getElem?_progress, answered]; rfl))
  rw [Monitor.journal_track, List.nil_append] at obeying
  obtain ⟨evidence, checked, answers, recorded⟩ := obeying req rfl success
  simp only [LoginEvidence.calls, List.forall_mem_cons, List.not_mem_nil, false_implies,
    implies_true, and_true] at recorded
  obtain ⟨clock, find, load, grant, resolve, touch, create⟩ := recorded
  have read := reach.madeWhen find
    (fun world => world.db.devices.find evidence.deviceId = some evidence.device)
    (fun _ _ executes => (Prod.mk.inj (Option.some.inj executes.1)).1)
  have same : evidence.device.deviceId = evidence.deviceId := by
    obtain ⟨_, _, _, _, _, found⟩ := read
    exact Tables.Table.key_of_find found
  rw [same] at touch
  refine ⟨evidence, checked, answers, ?_, clock, read, ?_, ?_, resolve, ?_, create, ?_⟩
  · intro other digits matching
    have own : isDigits 6 evidence.pin := (Option.filter_eq_some_iff.mp checked.pin).2
    exact pin_unique injective digits own matching checked.right
  · refine reach.madeWhen load _ (fun _ _ executes => ?_)
    exact getActiveCredential_eq_some (Prod.mk.inj (Option.some.inj executes.1)).1
  · refine reach.madeWhen grant _ (fun before after executes guard there => ?_)
    have possible := (guard_reserveLoginAttempt before.db evidence.device.accountId
      evidence.device.accountId cfg.pinMaxAttempts evidence.now).1
    rw [show before.db.reserveLoginAttempt _ _ _ = (some evidence.failedCount, after.db) from
      Option.some.inj executes.1, Option.mem_def.mp there] at possible
    exact possible rfl
  · obtain ⟨atRead, following, _, reads, toPool, found⟩ := read
    obtain ⟨atTouch, after, reachable, touches, toPool', _⟩ := reach.madeWhen touch
      (fun _ => True) (fun _ _ _ => trivial)
    obtain ⟨row, stored, live⟩ := touchDevice_eq_some (Option.some.inj touches.executes.1)
    refine ⟨atTouch, after, reachable, touches, toPool', row, stored, ?_, live⟩
    obtain ⟨_, last, atLast⟩ := sameDevice_run (.head (.perform reads) toPool) found
    obtain ⟨_, last', atLast'⟩ := sameDevice_run (.head (.perform touches) toPool') stored
    cases last.symm.trans last'
    exact atLast.trans atLast'.symm
  · intro input session created
    obtain ⟨before, after, split⟩ := List.append_of_mem (Service.mem_history.mp created)
    obtain ⟨request, _, _, made⟩ := reach.made mintMonitor_faithful handle_evidence split
    have logs : request = .pinLogin req := by
      have serves := made.serves
      simp only [Pool.requestOf, answered, Option.map_some, Option.some.injEq] at serves
      exact serves.symm
    obtain ⟨deviceId, secret, parsed, bound⟩ := made.allowed req logs
    cases parsed.symm.trans checked.token
    exact bound

/-- Whether a thread is a PIN login that was let in. -/
def letsIn : Thread Op Op.Reply Request Response → Bool
  | ⟨.pinLogin _, .pure response⟩ => response.status = 200
  | _ => false

open Sample in
/-- A login with the right PIN on the sample device is let in. -/
theorem pinLogin_sound_played
    : ∃ state req response evidence, service.Reachable enrolled state
        ∧ state.threads[0]? = some ⟨.pinLogin req, .pure response⟩ ∧ response.status = 200
        ∧ LoginSound Sample.platform config memorySessions enrolled state 0 req response evidence := by
  obtain ⟨state, reach, answers⟩ := exists_played enrolled
    (.arrive (loginRequest pin) :: calls 1000 0 12)
    (fun state => state.threads[0]?.any letsIn)
    (by decide +kernel)
  obtain ⟨thread, answered, answers⟩ := (Option.any_eq_true ..).mp answers
  unfold letsIn at answers
  split at answers
  · next req response =>
      obtain ⟨evidence, sound⟩ := pinLogin_sound
        (fun _ _ _ _ _ _ _ _ => platform_pbkdf2_injective) reach answered
        (of_decide_eq_true answers)
      exact ⟨state, req, response, evidence, reach, answered, of_decide_eq_true answers, sound⟩
  · contradiction

end DeviceAuth

end WorkersAuth

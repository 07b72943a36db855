import WorkersAuth.Atomic.Schedule
import WorkersAuth.DeviceAuth.Routes

/-! A deployment whose runs can be computed.
The session store is in memory, the host's answers come from outside one by one, and the
platform's digests are recorded values, so a schedule of requests can be played.
-/

namespace WorkersAuth

open Atomic DeviceAuth

-----------------------------------------------------------------------------------------
-- A session store in memory
-----------------------------------------------------------------------------------------

/-- The sessions that are not revoked, how many were minted, and the id of each in turn. -/
structure MemorySessions where
  live : List Session
  minted : Nat
  ids : Nat → String

/-- The session a store mints for an input. -/
def NewSession.mint (input : NewSession) (sid : String) (now : Millis) : Session where
  sid := sid
  userId := input.userId
  subjectType := input.subjectType
  createdAt := now
  lastSeenAt := now
  idleExpiresAt := min (now + input.idleTtlSec * sec) (now + input.absoluteTtlSec * sec)
  absoluteExpiresAt := now + input.absoluteTtlSec * sec
  scope := input.scope
  metadata := input.metadata

/-- The store's answer at a time. -/
def MemorySessions.run (now : Millis) (store : MemorySessions)
    : (op : SessionCall) → op.Reply × MemorySessions
  | .get sid =>
      (store.live.find? (fun session =>
        session.sid = sid && now < session.idleExpiresAt && now < session.absoluteExpiresAt), store)
  | .create input =>
      let session := input.mint (store.ids store.minted) now
      (session, { store with live := session :: store.live, minted := store.minted + 1 })
  | .revoke sid =>
      ((), { store with live := store.live.filter (fun session => session.sid ≠ sid) })
  | .revokeAllForUser userId =>
      ((), { store with live := store.live.filter (fun session => session.userId ≠ userId) })
  | .touch sid idleExpiresAt =>
      ((), {
        store with
        live := store.live.map (fun session =>
          if session.sid = sid && now < session.idleExpiresAt && now < session.absoluteExpiresAt then
            {
              session with
              lastSeenAt := now
              idleExpiresAt := min idleExpiresAt session.absoluteExpiresAt
            }
          else session)
      })

/-- What the store does at any time. -/
def memorySessions : Semantics SessionCall SessionCall.Reply MemorySessions :=
  fun op before reply after => ∃ now, before.run now op = (reply, after)

-----------------------------------------------------------------------------------------
-- Computing the calls
-----------------------------------------------------------------------------------------

/-- What the outside puts into a call: the time, the bytes that random draws repeat from, and
the code that is generated.
-/
structure Outside where
  now : Millis
  seed : Nat := 0
  code : String := "482915"

/-- Consecutive bytes from a seed on. -/
def Outside.bytes (outside : Outside) (length : Nat) : Bytes :=
  (List.range length).map (fun offset => UInt8.ofNat (outside.seed + offset))

section Computing

variable (platform : Platform) (users : String → Option AuthUser)

/-- The host's answer: every bot check passes, every message is sent, and no magic link is known. -/
def HostCall.answer (outside : Outside) : (op : HostCall) → Option op.Reply
  | .clock => some outside.now
  | .botCheck _ => some true
  | .resolveUser email => some (users email)
  | .sendCode .. => some true
  | .onEvent _ => some ()
  | .randomBytes length => some (outside.bytes length)
  | .generateEmailCode digits => if isDigits digits outside.code then some outside.code else none
  | .derive pin pepperKey salt iterations =>
      some (platform.pbkdf2 (platform.hmac pepperKey pin) salt iterations)
  | .setCookie _ => some ()
  | .takeMagicLink _ => some none

/-- Every call, computed. -/
def compute : Runner Op Op.Reply (World MemorySessions) Outside
  | _, .store call, world => (call.run world.db).map (fun (reply, db) => (reply, { world with db }))
  | outside, .session call, world =>
      let (reply, sessions) := world.sessions.run outside.now call
      some (reply, { world with sessions })
  | outside, .host call, world => (call.answer platform users outside).map (fun reply => (reply, world))

/-- The host's computed answers are possible ones, by cases on the call. -/
theorem HostCall.answers_of_answer {outside : Outside} {call : HostCall} {reply : call.Reply}
    (answered : call.answer platform users outside = some reply)
    : call.Answers platform reply := by
  cases call with
  | generateEmailCode digits =>
      simp only [HostCall.answer] at answered
      split at answered
      · next generated =>
          cases answered
          exact generated
      · contradiction
  | randomBytes length =>
      cases answered
      simp [HostCall.Answers, Outside.bytes]
  | derive pin pepperKey salt iterations =>
      cases answered
      rfl
  | _ => trivial

/-- Computed calls are calls of the service over the store in memory. -/
theorem compute_sound : (compute platform users).Sound (exec platform memorySessions) := by
  intro outside op before reply after computed
  rcases op with call | call | call
  · obtain ⟨⟨answer, db⟩, ran, same⟩ := Option.map_eq_some_iff.mp computed
    cases same
    exact ⟨ran, rfl⟩
  · cases computed
    exact ⟨⟨outside.now, rfl⟩, rfl⟩
  · obtain ⟨answer, answered, same⟩ := Option.map_eq_some_iff.mp computed
    cases same
    exact ⟨HostCall.answers_of_answer platform users answered, rfl⟩

end Computing

-----------------------------------------------------------------------------------------
-- Recorded digests
-----------------------------------------------------------------------------------------

/-- A digest known by its recorded values, and by a longer value where none is recorded. -/
def recorded {α : Type} [DecidableEq α] (values : List (α × Bytes)) (fallback : α → Bytes)
    (input : α)
    : Bytes :=
  ((values.find? (fun entry => entry.1 = input)).map Prod.snd).getD (fallback input)

/-- A recorded value is found under its input. -/
theorem recorded_cases {α : Type} [DecidableEq α] (values : List (α × Bytes))
    (fallback : α → Bytes) (input : α)
    : (input, recorded values fallback input) ∈ values
      ∨ recorded values fallback input = fallback input := by
  unfold recorded
  cases found : values.find? (fun entry => entry.1 = input) with
  | none => exact .inr rfl
  | some entry =>
      have same : entry.1 = input := by simpa using List.find?_some found
      exact .inl (same ▸ List.mem_of_find?_eq_some found)

/-- Equal digests are of equal inputs, or of inputs with equal fallbacks: no value is recorded
twice, and the fallbacks are longer than the recorded values.
-/
theorem recorded_eq {α : Type} [DecidableEq α] {values : List (α × Bytes)} {fallback : α → Bytes}
    (distinct : (values.map Prod.snd).Nodup) (sized : ∀ entry ∈ values, entry.2.length = 32)
    (long : ∀ input, 32 < (fallback input).length) {first second : α}
    (same : recorded values fallback first = recorded values fallback second)
    : first = second ∨ fallback first = fallback second := by
  rcases recorded_cases values fallback first with first_in | first_eq
  · rcases recorded_cases values fallback second with second_in | second_eq
    · rw [← same] at second_in
      exact .inl (congrArg Prod.fst (List.inj_on_of_nodup_map distinct first_in second_in rfl))
    · have short : (recorded values fallback first).length = 32 := sized _ first_in
      have beyond := long second
      rw [← second_eq, ← same] at beyond
      omega
  · rcases recorded_cases values fallback second with second_in | second_eq
    · have short : (recorded values fallback second).length = 32 := sized _ second_in
      have beyond := long first
      rw [← first_eq, same] at beyond
      omega
    · exact .inr (first_eq.symm.trans (same.trans second_eq))

/-- The bytes of a number, most significant first. -/
def bytesOf (length value : Nat) : Bytes :=
  (List.range length).map (fun index => UInt8.ofNat (value / 256 ^ (length - 1 - index)))

/-- A value no digest has: 33 zeros before the text. -/
def longText (text : String) : Bytes :=
  List.replicate 33 0 ++ text.toUTF8.data.toList

theorem longText_injective : Function.Injective longText := by
  intro first second same
  have bytes := List.append_cancel_left same
  exact String.toByteArray_inj.mp (ByteArray.ext (Array.toList_inj.mp bytes))

-----------------------------------------------------------------------------------------
-- A sample deployment
-----------------------------------------------------------------------------------------

namespace Sample

def secret : String := "q7Jw2Zp0uYx4Kc9LtRb6NvHs1MfGdEa3"

def otpKey : Bytes :=
  bytesOf 32 0x85caaf554888253981659002316302e35259ea3f80b7b2569dd63af710339e83

def pepperKey : Bytes :=
  bytesOf 32 0x5c1b8f3092d8113a0c76bbcea37ab13cb6e2f88a9d2a93fa5519d182f74e0c0c

def pin : String := "739105"
def wrongPin : String := "284617"

def pinHmac : Bytes :=
  bytesOf 32 0x416608401a5b912c640be1d93f289b1f084fb882a2c7ad8a9b70efae0667ac0c

def wrongPinHmac : Bytes :=
  bytesOf 32 0x3409f7afe4350032729d6e81ded35ffdb9df8529f1224ee515ba22628f80aae2

def salt : Bytes := bytesOf 16 0x202122232425262728292a2b2c2d2e2f

/-- HMAC-SHA256 of the codes for the sample address, and of the PINs. -/
def hmacs : List ((Bytes × String) × Bytes) :=
  [
    ((otpKey, "user42@example.com\n482915"),
      bytesOf 32 0x090f6c52581bcc0f39a6e9db670d170bb27dd215f6526f2b668a97930bdc8cde),
    ((otpKey, "user42@example.com\n105833"),
      bytesOf 32 0x4ba1ca37d6a8fcecd4715fd7c36683b62637602507ffacfc0895cb909787b51b),
    ((pepperKey, pin), pinHmac),
    ((pepperKey, wrongPin), wrongPinHmac)
  ]

/-- PBKDF2-SHA256 of the PINs, at the cost configured now and at an earlier one. -/
def pbkdf2s : List ((Bytes × Bytes × ℚ) × Bytes) :=
  [
    ((pinHmac, salt, 1000),
      bytesOf 32 0x45ddfa67fec0115a24c441d8ab40e23fe5c2b600ca987e3b4b0dd87a7d8738ae),
    ((wrongPinHmac, salt, 1000),
      bytesOf 32 0x15f3fcd8bc830241ad41c13feb5180f24e86e6aecc024c6bdb89882bc840dd3a),
    ((pinHmac, salt, 2000),
      bytesOf 32 0xe390358a2c752fe8bed3af33cf7948575c7f190eacbcea3489bd9eb23490a335),
    ((wrongPinHmac, salt, 2000),
      bytesOf 32 0xaecb59477d3c11ef8b8ec705c4c5d876cb8b73a969487c62e679e32cc26886d5),
    ((pinHmac, bytesOf 16 0x303132333435363738393a3b3c3d3e3f, 1000),
      bytesOf 32 0xc232fdedd8dc621fe19a29bbdf80ce391a381e6b170c55c6cf0f88062b6d943a)
  ]

/-- SHA-256 of the address, of the device's secret and of the session ids. -/
def sha256s : List (String × Bytes) :=
  [
    ("user42@example.com",
      bytesOf 32 0x0b4eed6a0d5eab16ee89d796aeb47fcc0f21394df7f54c8b3baf72467a67da6c),
    ("QEFCQ0RFRkdISUpLTE1OT1BRUlNUVVZXWFlaW1xdXl8",
      bytesOf 32 0xf45dc82a7523d14974cea050e3028e8bf06a8ee855a9d63034ebb4fb9ecc2305),
    ("YGFiY2RlZmdoaWprbG1ub3BxcnN0dXZ3eHl6e3x9fn8",
      bytesOf 32 0x128a42f0efc787b4710881a27873ead95dfcf13a9dfbdf9ca1f2f0600ecb9407),
    ("gIGCg4SFhoeIiYqLjI2Oj5CRkpOUlZaXmJmam5ydnp8",
      bytesOf 32 0xacde33276f001bbdcf6ec2769d1f251d61f4788a8db8a495ac6e01c076911c61)
  ]

def hkdfs : List ((String × String) × Bytes) :=
  [
    ((secret, "key-id"), bytesOf 8 0xce7eaf99e83f6fb1),
    ((secret, "otp-hmac"), otpKey),
    ((secret, "pin-pepper"), pepperKey)
  ]

/-- The bytes that are written in base64 here, and their texts. -/
def base64s : List (Bytes × String) :=
  [
    (salt, "ICEiIyQlJicoKSorLC0uLw=="),
    (bytesOf 32 0x45ddfa67fec0115a24c441d8ab40e23fe5c2b600ca987e3b4b0dd87a7d8738ae,
      "Rd36Z/7AEVokxEHYq0DiP+XCtgDKmH47Sw3Yen2HOK4="),
    (bytesOf 32 0xe390358a2c752fe8bed3af33cf7948575c7f190eacbcea3489bd9eb23490a335,
      "45A1iix1L+i+068zz3lIV1x/GQ6svOo0ib2esjSQozU="),
    (bytesOf 16 0x303132333435363738393a3b3c3d3e3f, "MDEyMzQ1Njc4OTo7PD0+Pw=="),
    (bytesOf 32 0xc232fdedd8dc621fe19a29bbdf80ce391a381e6b170c55c6cf0f88062b6d943a,
      "wjL97djcYh/hmim734DOORo4HmsXDFXGzw+IBittlDo="),
    (bytesOf 32 0x404142434445464748494a4b4c4d4e4f505152535455565758595a5b5c5d5e5f,
      "QEFCQ0RFRkdISUpLTE1OT1BRUlNUVVZXWFlaW1xdXl8=")
  ]

/-- The recorded values of the platform's functions. -/
def platform : Platform where
  sha256 := recorded sha256s longText
  hmac key message := recorded hmacs (fun input => longText input.2) (key, message)
  hkdf source info := recorded hkdfs (fun input => longText input.2) (source, info)
  pbkdf2 password salt iterations :=
    some (recorded pbkdf2s (fun input => List.replicate 33 0 ++ input.1) (password, salt, iterations))
  btoa bytes := (base64s.lookup bytes).getD ""
  atob text := (base64s.find? (fun entry => entry.2 = text)).map Prod.fst
  parseUrl _ := none
  toLowerCase text := text.map Char.toLower

/-- The recorded digests are of different texts. -/
theorem platform_sha256_injective : Function.Injective platform.sha256 := by
  intro first second same
  have long (input : String) : 32 < (longText input).length := by
    simp only [longText, List.length_append, List.length_replicate]
    omega
  rcases recorded_eq (by decide +kernel) (by decide +kernel) long same with equal | equal
  · exact equal
  · exact longText_injective equal

/-- The recorded HMAC values are values of different messages. -/
theorem platform_hmac_injective (key : Bytes) : Function.Injective (platform.hmac key) := by
  intro first second same
  have long (input : Bytes × String) : 32 < (longText input.2).length := by
    simp only [longText, List.length_append, List.length_replicate]
    omega
  rcases recorded_eq (by decide +kernel) (by decide +kernel) long same with equal | equal
  · exact congrArg Prod.snd equal
  · exact longText_injective equal

/-- Recorded derivations are of different PINs. -/
theorem platform_pbkdf2_injective {key salt : Bytes} {iterations : ℚ} {hash : Bytes}
    {first second : String}
    (derives : platform.pbkdf2 (platform.hmac key first) salt iterations = some hash)
    (same : platform.pbkdf2 (platform.hmac key second) salt iterations = some hash)
    : first = second := by
  have equal := Option.some.inj (derives.trans same.symm)
  have long (input : Bytes × Bytes × ℚ) : 32 < (List.replicate 33 0 ++ input.1).length := by
    simp only [List.length_append, List.length_replicate]
    omega
  apply platform_hmac_injective key
  rcases recorded_eq (by decide +kernel) (by decide +kernel) long equal with equal | equal
  · exact congrArg Prod.fst equal
  · exact List.append_cancel_left equal

def auth : AuthConfig where
  store := .deviceBound
  cookie := {
    sessionCookieName := "__Host-session"
    csrfCookieName := "__Host-csrf"
    secure := true
    sameSite := "Lax"
  }
  session := { idleTtlSec := 1800, absoluteTtlSec := 86400 }
  csrf := { trustedOrigins := [], headerName := "x-csrf-token", dangerouslyDisable := false }
  storeUserClaims := false
  idleTtl_pos := by decide
  idleTtl_le := by decide

/-- Small limits, so that short runs reach them. -/
def config : Config where
  auth := auth
  transport := .response
  secret := secret
  previousSecrets := []
  normalizeEmail := some
  deviceCookieName := "__Host-device"
  deviceIdleMs := 2592000000
  deviceAbsoluteMs := 7776000000
  pinMaxAttempts := 2
  pinIterations := 1000
  isWeakPin _ := false
  revokeOthersOnChange := true
  codeTtlMs := 600000
  codeMaxAttempts := 2
  codeDigits := 6
  maxFailuresPerEmail := 3
  maxFailuresPerDevice := 3
  failureWindowSec := 3600
  freshMs := 600000
  bearerTtlSec := 3600
  limits := {
    cooldownSec := 60
    perEmail := 5
    startsPerIp := 20
    verifiesPerIp := 20
    pinLoginsPerIp := 20
  }
  breaker := none
  getClientIp _ := none
  requireClientIp := false
  botCheck := false
  storeBound := rfl
  deviceIdle_pos := by decide
  deviceIdle_le := by decide
  pinMaxAttempts_pos := by decide
  codeTtl_pos := by decide
  codeMaxAttempts_pos := by decide
  codeDigits_eq := by decide
  maxFailuresPerEmail_pos := by decide
  maxFailuresPerDevice_pos := by decide
  failureWindow_pos := by decide
  bearerTtl_pos := by decide

def user : AuthUser where
  id := "user_42"
  subjectType := .user
  email := some "user42@example.com"
  rateLimitId := "user_42"
  claims := []

def users (email : String) : Option AuthUser :=
  if email = "user42@example.com" then some user else none

/-- A request with a JSON body and at most a device token and a session token. -/
def request (fields : JsonObject) (deviceToken sessionToken : Option String := none) : HttpRequest where
  method := "POST"
  url := "https://app.example.com/device"
  header name :=
    if name = "x-device-token" then deviceToken
    else if name = "authorization" then
      sessionToken.map (fun token => "Bearer " ++ bearerSessionToken token)
    else none
  cookie _ := none
  body := .body (some fields)

def deviceToken : String :=
  "000102030405060708090a0b0c0d0e0f.QEFCQ0RFRkdISUpLTE1OT1BRUlNUVVZXWFlaW1xdXl8"

def startRequest : Request :=
  .emailStart (request [("email", .str "user42@example.com")])

def verifyRequest (code : String) : Request :=
  .emailVerify (request [("email", .str "user42@example.com"), ("code", .str code)])

def loginRequest (pin : String) : Request :=
  .pinLogin (request [("pin", .str pin)] (some deviceToken))

/-- The next calls of the request at a position, all at one time. -/
def calls (now : Millis) (index count : Nat) : List (Move Request Outside) :=
  Move.times count index { now }

/-- A code is sent at time zero. -/
def issued : List (Move Request Outside) := .arrive startRequest :: calls 0 0 8

/-- A registered device. -/
def device : DeviceRecord where
  deviceId := "000102030405060708090a0b0c0d0e0f"
  accountId := "user_42"
  email := "user42@example.com"
  secretHash := "f45dc82a7523d14974cea050e3028e8bf06a8ee855a9d63034ebb4fb9ecc2305"
  label := none
  createdAt := 0
  lastUsedAt := 0
  idleExpiresAt := 2592000000
  absoluteExpiresAt := 7776000000
  revokedAt := none

/-- The PIN's credential, enrolled at a cost. -/
def credential (iterations : ℚ) (hash : String) : CredentialRecord where
  credentialId := "303132333435363738393a3b3c3d3e3f"
  accountId := "user_42"
  type := .pin
  deviceId := none
  material := PinMaterial.toJson {
    iterations
    salt := "ICEiIyQlJicoKSorLC0uLw"
    hash
    pepperVer := "ce7eaf99e83f6fb1"
  }
  createdAt := 0
  updatedAt := 0
  lastUsedAt := none

def ids (minted : Nat) : String :=
  ["YGFiY2RlZmdoaWprbG1ub3BxcnN0dXZ3eHl6e3x9fn8", "gIGCg4SFhoeIiYqLjI2Oj5CRkpOUlZaXmJmam5ydnp8"].getD
    minted ""

/-- Nothing has happened yet. -/
def empty : World MemorySessions := ⟨.empty, [], 0, ids⟩

/-- The device is registered and the account has this PIN credential. -/
def registered (credential : CredentialRecord) : World MemorySessions where
  db := {
    Database.empty with
    devices := ⟨[device], List.nodup_singleton _⟩
    creds := ⟨[{ credential with revokedAt := none }], List.nodup_singleton _⟩
  }
  sessions := ⟨[], 0, ids⟩

/-- The PIN was enrolled as the configuration says. -/
def enrolled : World MemorySessions :=
  registered (credential 1000 "Rd36Z_7AEVokxEHYq0DiP-XCtgDKmH47Sw3Yen2HOK4")

/-- The PIN was enrolled at an earlier cost. -/
def enrolledEarlier : World MemorySessions :=
  registered (credential 2000 "45A1iix1L-i-068zz3lIV1x_GQ6svOo0ib2esjSQozU")

/-- The service of the sample deployment. -/
abbrev service : Service Op Op.Reply (World MemorySessions) Request Response :=
  deviceAuth platform config memorySessions

abbrev State := Pool Op Op.Reply (World MemorySessions) Request Response

/-- The state a schedule of the service leads to. -/
def play (world : World MemorySessions) (schedule : List (Move Request Outside)) : Option State :=
  service.play (compute platform users) (fun _ _ => true) (.start world) schedule

/-- A state played from a world is reachable from it. -/
theorem reachable {world : World MemorySessions} {schedule : List (Move Request Outside)}
    {state : State} (played : play world schedule = some state)
    : service.Reachable world state :=
  Service.reachable_of_play (compute_sound platform users) played

/-- What a played state shows is so in a reachable state. -/
theorem exists_played (world : World MemorySessions) (schedule : List (Move Request Outside))
    (check : State → Bool) (passes : (play world schedule).any check = true)
    : ∃ state, service.Reachable world state ∧ check state = true := by
  obtain ⟨state, played, checked⟩ := (Option.any_eq_true ..).mp passes
  exact ⟨state, reachable played, checked⟩

/-- A call the sample's outside can make in a played state is a call of a reachable state. -/
theorem exists_performed (world : World MemorySessions) (schedule : List (Move Request Outside))
    (index : Nat) (outside : Outside) (check : State → State → Bool)
    (passes : (play world schedule).any (fun state =>
      (service.move (compute platform users) (fun _ _ => true) state (.perform index outside)).any
        (check state)) = true)
    : ∃ state entry next, service.Reachable world state ∧ entry.thread = index
        ∧ service.Performs state entry next ∧ check state next = true := by
  obtain ⟨state, reach, moves⟩ := exists_played world schedule _ passes
  obtain ⟨next, moved, checked⟩ := (Option.any_eq_true ..).mp moves
  obtain ⟨entry, thread, performs⟩ :=
    Service.performs_of_move (compute_sound platform users) moved
  exact ⟨state, entry, next, reach, thread, performs, checked⟩

end Sample

end WorkersAuth

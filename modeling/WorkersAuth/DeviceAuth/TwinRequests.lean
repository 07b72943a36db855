import WorkersAuth.DeviceAuth.Application
import WorkersAuth.DeviceAuth.TwinCalls

/-! Every request is answered alike by twins, whatever it is asked and whatever its host replies.
Only the routes that revoke devices show what they counted, dead ones perhaps among them.
-/

namespace WorkersAuth

open Atomic

namespace DeviceAuth

variable {σ α : Type} {platform : Platform} {sessions : Semantics SessionCall SessionCall.Reply σ}
  {longest codeTtlMs now : Millis} {cfg : Config}

-----------------------------------------------------------------------------------------
-- Email codes
-----------------------------------------------------------------------------------------

theorem deviceOfAddress_mirrored (req : HttpRequest) (email : String)
    : Mirrored platform sessions (TwinsAt longest codeTtlMs now) (deviceOfAddress platform cfg req email now)
        (TwinsAt longest codeTtlMs now) :=
  (readDevice_mirrored req).bind_same (fun _ => mirrored_answer _)

theorem emailStart_mirrored (covers : Covers longest cfg) (req : HttpRequest)
    : Mirrored platform sessions (Twins longest cfg.codeTtlMs) (emailStart platform cfg req)
        (Twins longest cfg.codeTtlMs) := by
  unfold emailStart
  refine (gate_mirrored req).bind_same (fun gated => ?_)
  split
  · exact mirrored_answer _
  split
  · exact mirrored_answer _
  split
  case h_2 => exact mirrored_answer _
  next email address =>
  refine (mirrored_untimed (botRefused_oblivious _)).bind_same (fun bot => ?_)
  split
  · exact mirrored_answer _
  refine mirrors_clock (fun now => ?_)
  refine (mirrored_oblivious (ipLimited_oblivious covers (by simp))).bind_same (fun hit => ?_)
  split
  · exact mirrored_answer_at _
  refine (deviceOfAddress_mirrored req email).bind_same (fun device => ?_)
  refine mirrored_call (by exact ⟨⟨rfl, covers.failures⟩, rfl⟩) (fun failures => ?_)
  split
  · exact mirrored_call (by trivial) (fun _ => mirrored_answer_at _)
  refine (mirrored_oblivious
    (rateLimited_oblivious covers.cooldown (coolBucket_ne_cbBucket _))).bind_same (fun cooled => ?_)
  split
  · exact mirrored_answer_at _
  refine (mirrored_oblivious
    (rateLimited_oblivious covers.hour (hourlyBucket_ne_cbBucket _))).bind_same (fun capped => ?_)
  split
  · exact mirrored_answer_at _
  · exact mirrored_any (mirrored_oblivious (issueCode_oblivious email))

theorem trustedDevice_mirrored (req : HttpRequest) (user : AuthUser) (email : String) (trustDevice : Bool)
    (label : Option String)
    : Mirrored platform sessions (TwinsAt longest codeTtlMs now)
        (trustedDevice platform cfg req user email now trustDevice label) (TwinsAt longest codeTtlMs now) := by
  have register {β : Type} {rest : DeviceRecord × String → Handler β}
      (later : ∀ registered, Mirrored platform sessions (TwinsAt longest codeTtlMs now) (rest registered)
        (TwinsAt longest codeTtlMs now))
      : Mirrored platform sessions (TwinsAt longest codeTtlMs now)
          (registerDevice platform cfg user email label now >>= rest) (TwinsAt longest codeTtlMs now) :=
    (mirrored_oblivious (registerDevice_oblivious user email label)).bind_same later
  unfold trustedDevice
  split
  · exact mirrored_answer _
  refine (readDevice_mirrored req).bind_same (fun presented => ?_)
  split
  · refine mirrored_call (by exact ⟨rfl, rfl⟩) (fun touched => ?_)
    split
    · exact (mirrored_oblivious (setDeviceCookie_oblivious ..)).bind_same (fun _ => mirrored_answer _)
    · exact register (fun _ => mirrored_answer _)
  · exact register (fun _ => mirrored_answer _)

theorem emailVerified_mirrored (req : HttpRequest) (resolved : AuthUser) (email : String)
    (trustDevice : Bool) (label : Option String)
    : Mirrored platform sessions (TwinsAt longest codeTtlMs now)
        (emailVerified platform cfg req resolved email now trustDevice label) (Twins longest codeTtlMs) := by
  unfold emailVerified
  refine mirrored_call (by trivial) (fun _ => mirrored_call (by exact ⟨trivial, rfl⟩) (fun before => ?_))
  refine (mirrored_untimed_at (onEventIf_oblivious _ _)).bind_same (fun _ => ?_)
  refine (trustedDevice_mirrored req _ email trustDevice label).bind_same (fun trusted => ?_)
  refine mirrored_of_twins ((mintSession_mirrored req _ _).bind_same (fun minted => ?_))
  split
  · exact mirrored_answer _
  · exact mirrored_call_untimed (by exact fun _ => ⟨trivial, rfl⟩) (fun _ => mirrored_answer _)

/-- A code that is compared is there at both sites, and is consumed at both if it matches. -/
theorem checkCode_mirrored (covers : Covers longest cfg) (req : HttpRequest) (email code : String)
    (budget : Budget) (slot : WindowCount) (trustDevice : Bool) (label : Option String)
    : Mirrored platform sessions (TwinsAt longest codeTtlMs now)
        (checkCode platform cfg req email code now budget slot trustDevice label)
        (Twins longest codeTtlMs) := by
  have refused {related : Site σ → Site σ → Prop}
      (held : ∀ one two, related one two → TwinsAt longest codeTtlMs now one two) (reason : String)
      : Mirrored platform sessions related (invalid platform cfg email now reason) (Twins longest codeTtlMs) :=
    (mirrored_any (mirrored_oblivious (invalid_oblivious covers email reason))).of_related held
  unfold checkCode
  refine (reserveEmailCodeAttempt_mirrors email cfg.codeMaxAttempts).bind_eq (fun _ _ _ _ => And.left)
    (fun reply => ?_)
  cases reply with
  | none =>
      refine Program.Mirrors.of_related ?_ (fun _ _ held => held.2.1)
      exact mirrored_call (by exact ⟨trivial, rfl⟩)
        (fun _ => mirrored_call (by trivial) (fun _ => mirrored_answer_at _))
  | some reserved =>
      refine Program.Mirrors.of_related ?_ (fun _ _ held => held.2.2 reserved rfl)
      dsimp only
      split
      · exact refused (fun _ _ => And.left) _
      split
      · exact refused (fun _ _ => And.left) _
      refine (consumeEmailCode_mirrors email reserved.codeHash).bind_eq (fun _ _ _ _ => And.left)
        (fun consumed => ?_)
      refine Program.Mirrors.given (fun _ _ held => held.2.1) (fun consumes => ?_)
      subst consumes
      refine Program.Mirrors.of_related ?_ (fun _ _ held => held.2.2)
      refine mirrored_call (by trivial) (fun resolved => ?_)
      split
      · exact refused (fun _ _ => id) _
      · refine mirrored_call (by exact ⟨trivial, rfl⟩) (fun _ => ?_)
        refine (mirrored_oblivious (checked_oblivious covers false)).bind_same (fun _ => ?_)
        exact emailVerified_mirrored req _ email trustDevice label

theorem reserveSlot_mirrored (covers : Covers longest cfg) (req : HttpRequest) (email code : String)
    {budget : Budget} (own : budget.failures ≠ cbBucket)
    : Mirrored platform sessions (TwinsAt longest codeTtlMs now)
        (reserveSlot platform cfg req email code now budget) (Twins longest codeTtlMs) := by
  unfold reserveSlot
  refine mirrored_call (by exact ⟨⟨rfl, covers.failures, own⟩, rfl⟩) (fun slot => ?_)
  split
  · refine mirrored_call (by trivial) (fun _ => ?_)
    exact mirrored_call (by exact ⟨⟨rfl, covers.failures⟩, rfl⟩) (fun _ => mirrored_answer_at _)
  · exact checkCode_mirrored covers _ _ _ _ _ _ _

theorem emailVerify_mirrored (covers : Covers longest cfg) (req : HttpRequest)
    : Mirrored platform sessions (Twins longest codeTtlMs) (emailVerify platform cfg req)
        (Twins longest codeTtlMs) := by
  unfold emailVerify
  refine (gate_mirrored req).bind_same (fun gated => ?_)
  split
  · exact mirrored_answer _
  split
  · exact mirrored_answer _
  split
  case h_2 => exact mirrored_answer _
  next email address =>
  split
  case h_2 => exact mirrored_answer _
  next code digits =>
  refine (mirrored_untimed (botRefused_oblivious _)).bind_same (fun bot => ?_)
  split
  · exact mirrored_answer _
  refine mirrors_clock (fun now => ?_)
  refine (mirrored_oblivious (ipLimited_oblivious covers (by simp))).bind_same (fun hit => ?_)
  split
  · exact mirrored_answer_at _
  refine (mirrored_oblivious (breakerRefused_oblivious covers)).bind_same (fun refused => ?_)
  split
  · exact mirrored_answer_at _
  refine (deviceOfAddress_mirrored req email).bind_same (fun device => ?_)
  exact reserveSlot_mirrored covers req email code (failureBucket_ne_cbBucket cfg _ _)

-----------------------------------------------------------------------------------------
-- PINs
-----------------------------------------------------------------------------------------

theorem setPin_mirrored (req : HttpRequest)
    : Mirrored platform sessions (Twins longest codeTtlMs) (setPin platform cfg req)
        (Twins longest codeTtlMs) := by
  unfold setPin
  refine (gate_mirrored req).bind_same (fun gated => ?_)
  split
  · exact mirrored_answer _
  · exact mirrored_answer _
  refine mirrors_clock (fun now => mirrored_of_twins ?_)
  split
  · exact mirrored_answer _
  split
  · exact mirrored_answer _
  split
  · exact mirrored_answer _
  split
  case h_2 => exact mirrored_answer _
  next pin digits =>
  split
  · exact mirrored_answer _
  refine (mirrored_untimed enroll_oblivious).bind_same (fun enrolled => ?_)
  split
  case h_2 => exact mirrored_answer _
  next material derived =>
  refine mirrored_call_untimed (by exact fun _ => trivial) (fun bytes => ?_)
  refine (replaceCredential_mirrors _ _).bind (fun result shown => ?_)
  refine Program.Mirrors.given (fun _ _ => And.left) (fun same => ?_)
  obtain ⟨replaced, devicesRevoked⟩ := result
  obtain ⟨alsoReplaced, counted⟩ := shown
  obtain rfl : alsoReplaced = replaced := same
  refine Program.Mirrors.of_related ?_ (fun _ _ => And.right)
  refine (mirrored_untimed (by exact ⟨fun _ => trivial, fun _ => trivial⟩)).bind_same (fun _ => ?_)
  split
  · refine (onEventIf_mirrors _ _ rfl rfl).bind (fun _ _ => ?_)
    exact (mirrored_untimed (revokeAllSessions_oblivious ..)).bind_same (fun _ => mirrored_answer _)
  · exact mirrored_answer _

theorem pinStatus_mirrored (req : HttpRequest)
    : Mirrored platform sessions (Twins longest codeTtlMs) (pinStatus platform cfg req)
        (Twins longest codeTtlMs) := by
  unfold pinStatus
  refine (gate_mirrored req).bind_same (fun gated => ?_)
  split
  · exact mirrored_answer _
  · exact mirrored_answer _
  · exact mirrored_call_untimed (by exact fun _ => ⟨trivial, rfl⟩) (fun _ => mirrored_answer _)

theorem signIn_mirrored (req : HttpRequest) (device : DeviceRecord) (credential : CredentialRecord)
    (upgraded : Option JsonObject)
    : Mirrored platform sessions (TwinsAt longest codeTtlMs now)
        (signIn platform cfg req device credential upgraded now) (Twins longest codeTtlMs) := by
  unfold signIn
  refine mirrored_call (by exact ⟨trivial, rfl⟩) (fun _ => mirrored_call (by trivial) (fun resolved => ?_))
  split
  · exact mirrored_call (by trivial) (fun _ => mirrored_answer_at _)
  refine mirrored_call (by exact ⟨rfl, rfl⟩) (fun touched => ?_)
  split
  · exact mirrored_call (by trivial) (fun _ => mirrored_answer_at _)
  refine (mirrored_oblivious (setDeviceCookie_oblivious _ _ _)).bind_same (fun _ => mirrored_of_twins ?_)
  refine (mintSession_mirrored req _ _).bind_same (fun minted => ?_)
  split
  · exact mirrored_answer _
  · exact mirrored_call_untimed (by exact fun _ => trivial) (fun _ => mirrored_answer _)

theorem checkPin_mirrored (req : HttpRequest) (pin : String) (device : DeviceRecord)
    (credential : CredentialRecord) (failedCount : Nat)
    : Mirrored platform sessions (TwinsAt longest codeTtlMs now)
        (checkPin platform cfg req pin device credential failedCount now) (Twins longest codeTtlMs) := by
  unfold checkPin
  refine (mirrored_untimed_at pinVerify_oblivious).bind_same (fun verified => ?_)
  split
  · exact mirrored_answer_at _
  · refine mirrored_call (by trivial) (fun _ => ?_)
    split
    · exact mirrored_call (by exact ⟨trivial, rfl⟩)
        (fun _ => mirrored_call (by trivial) (fun _ => mirrored_answer_at _))
    · exact mirrored_answer_at _
  · exact mirrored_call (by exact ⟨trivial, rfl⟩) (fun _ => signIn_mirrored req device credential _)

theorem pinLogin_mirrored (covers : Covers longest cfg) (req : HttpRequest)
    : Mirrored platform sessions (Twins longest codeTtlMs) (pinLogin platform cfg req)
        (Twins longest codeTtlMs) := by
  unfold pinLogin
  refine (gate_mirrored req).bind_same (fun gated => ?_)
  split
  · exact mirrored_answer _
  split
  · exact mirrored_answer _
  split
  case h_2 => exact mirrored_answer _
  next pin digits =>
  refine (mirrored_untimed (botRefused_oblivious _)).bind_same (fun bot => ?_)
  split
  · exact mirrored_answer _
  refine mirrors_clock (fun now => ?_)
  refine (mirrored_oblivious (ipLimited_oblivious covers (by simp))).bind_same (fun hit => ?_)
  split
  · exact mirrored_answer_at _
  unfold loginOnDevice
  refine (readDevice_mirrored req).bind_same (fun found => ?_)
  split
  · exact mirrored_call (by trivial) (fun _ => mirrored_answer_at _)
  unfold attemptPin
  refine mirrored_call (by exact ⟨trivial, rfl⟩) (fun active => ?_)
  split
  · exact mirrored_call (by trivial) (fun _ => mirrored_answer_at _)
  refine mirrored_call (by exact ⟨trivial, rfl⟩) (fun reserved => ?_)
  split
  · exact mirrored_call (by trivial) (fun _ => mirrored_answer_at _)
  · exact checkPin_mirrored req pin _ _ _

-----------------------------------------------------------------------------------------
-- Devices and logout
-----------------------------------------------------------------------------------------

theorem listDevices_mirrored (req : HttpRequest)
    : Mirrored platform sessions (Twins longest codeTtlMs) (listDevices platform cfg req)
        (Twins longest codeTtlMs) := by
  unfold listDevices
  refine (gate_mirrored req).bind_same (fun gated => ?_)
  split
  · exact mirrored_answer _
  · exact mirrored_answer _
  refine mirrors_clock (fun now => mirrored_call (by exact ⟨rfl, rfl⟩) (fun _ => mirrored_answer_at _))

theorem forgetDevice_mirrored (req : HttpRequest)
    : Mirrored platform sessions (Twins longest codeTtlMs) (forgetDevice platform cfg req)
        (Twins longest codeTtlMs) := by
  unfold forgetDevice
  refine (gate_mirrored req).bind_same (fun gated => ?_)
  split
  · exact mirrored_answer _
  refine mirrors_clock (fun now => ?_)
  refine Program.Mirrors.bind_related (Twins longest codeTtlMs) ?_ (fun _ _ => ?_)
  · unfold forgetPresented
    refine (readDevice_mirrored req).bind_same (fun found => ?_)
    cases found with
    | none => exact .answer (fun _ _ => And.right)
    | some device =>
        refine Program.Mirrors.of_related ?_ (fun _ _ => And.right)
        exact (revokeDevice_mirrors _ _ _).bind (fun _ _ => onEventIf_mirrors _ _ rfl rfl)
  · exact (mirrored_untimed clearDeviceCookie_oblivious).bind_same (fun _ => mirrored_answer _)

theorem logout_mirrored (req : HttpRequest)
    : Mirrored platform sessions (Twins longest codeTtlMs) (logout platform cfg req)
        (Twins longest codeTtlMs) := by
  unfold logout
  refine (gate_mirrored req).bind_same (fun gated => ?_)
  split
  · exact mirrored_answer _
  refine (mirrored_untimed (revokeOwn_oblivious _)).bind_same (fun _ => ?_)
  exact (mirrored_untimed forgetSessionCookies_oblivious).bind_same (fun _ => mirrored_answer _)

-----------------------------------------------------------------------------------------
-- Requests
-----------------------------------------------------------------------------------------

/-- An object without a field. -/
def withoutField (name : String) : Json → Json
  | .obj fields => .obj (fields.filter (fun field => field.1 ≠ name))
  | value => value

/-- What is seen of an answer: all of it but how many devices were revoked, dead ones perhaps among them. -/
def AppRequest.seen : AppRequest → AppAnswer → AppAnswer
  | .route (.revokeAllDevices _), .response res =>
      .response { res with body := withoutField "revoked" res.body }
  | .route (.revokeDevice ..), .response res =>
      .response { res with body := withoutField "revoked" res.body }
  | .revokeDevice .., .decided _ => .decided false
  | .revokeAllDevices _, .count _ => .count 0
  | _, answer => answer

/-- The answers are seen to be the same, and the sites are twins. -/
def SeenSame (longest codeTtlMs : Millis) (request : AppRequest) (answer shown : AppAnswer)
    (last final : Site σ)
    : Prop :=
  request.seen answer = request.seen shown ∧ Twins longest codeTtlMs last final

/-- What is answered alike is seen to be the same. -/
theorem seen_of_mirrored {part : Handler α} {wrap : α → AppAnswer} {request : AppRequest}
    (mirrored : Mirrored platform sessions (Twins longest codeTtlMs) part (Twins longest codeTtlMs))
    : (do return wrap (← part)).Mirrors (siteExec platform sessions) (Twins longest codeTtlMs)
        (do return wrap (← part)) (SeenSame longest codeTtlMs request) :=
  mirrored.bind_same (fun _ => .answer (fun _ _ still => ⟨rfl, still⟩))

theorem revokeAllDevices_seen (req : HttpRequest)
    : (revokeAllDevices platform cfg req).Mirrors (siteExec platform sessions) (Twins longest codeTtlMs)
        (revokeAllDevices platform cfg req)
        (fun res shown => SeenSame longest codeTtlMs (.route (.revokeAllDevices req)) (.response res)
          (.response shown)) := by
  unfold revokeAllDevices
  refine (gate_mirrored req).bind_same (fun gated => ?_)
  split
  · exact .answer (fun _ _ still => ⟨rfl, still⟩)
  · exact .answer (fun _ _ still => ⟨rfl, still⟩)
  refine mirrors_clock (fun now => Program.Mirrors.of_related ?_ (fun _ _ => And.right))
  refine (revokeAllDevices_mirrors _ _ _).bind (fun count counted => ?_)
  refine Program.Mirrors.bind (onEventIf_mirrors true true rfl rfl) (fun _ _ => ?_)
  refine (mirrored_untimed (revokeAllSessions_oblivious _ _)).bind_same (fun _ => ?_)
  refine (mirrored_untimed clearDeviceCookie_oblivious).bind_same (fun _ => ?_)
  exact .answer (fun _ _ still => ⟨rfl, still⟩)

theorem revokeDevice_seen (req : HttpRequest) (deviceId : String)
    : (revokeDevice platform cfg req deviceId).Mirrors (siteExec platform sessions) (Twins longest codeTtlMs)
        (revokeDevice platform cfg req deviceId)
        (fun res shown => SeenSame longest codeTtlMs (.route (.revokeDevice req deviceId)) (.response res)
          (.response shown)) := by
  unfold revokeDevice
  refine (gate_mirrored req).bind_same (fun gated => ?_)
  split
  · exact .answer (fun _ _ still => ⟨rfl, still⟩)
  · exact .answer (fun _ _ still => ⟨rfl, still⟩)
  refine mirrors_clock (fun now => Program.Mirrors.of_related ?_ (fun _ _ => And.right))
  refine (revokeDevice_mirrors _ _ _).bind (fun revoked counted => ?_)
  refine (onEventIf_mirrors _ _ rfl rfl).bind (fun _ _ => ?_)
  exact .answer (fun _ _ still => ⟨rfl, still⟩)

theorem requireFreshEmailAuth_mirrored (maxAgeMs : Millis) (req : HttpRequest)
    : Mirrored platform sessions (Twins longest codeTtlMs) (requireFreshEmailAuth platform cfg maxAgeMs req)
        (Twins longest codeTtlMs) := by
  unfold requireFreshEmailAuth
  refine (gate_mirrored req).bind_same (fun gated => ?_)
  split
  · exact mirrored_answer _
  · exact mirrored_answer _
  split
  · exact mirrored_answer _
  refine mirrors_clock (fun now => mirrored_of_twins ?_)
  split
  · exact mirrored_answer _
  split <;> exact mirrored_answer _

/-- Every route is seen to answer the same, by cases on the route. -/
theorem handle_seen (covers : Covers longest cfg) (request : Request)
    : (AppRequest.run platform cfg (.route request)).Mirrors (siteExec platform sessions)
        (Twins longest cfg.codeTtlMs) (AppRequest.run platform cfg (.route request))
        (SeenSame longest cfg.codeTtlMs (.route request)) := by
  cases request with
  | emailStart req => exact seen_of_mirrored (emailStart_mirrored covers req)
  | emailVerify req => exact seen_of_mirrored (emailVerify_mirrored covers req)
  | setPin req => exact seen_of_mirrored (setPin_mirrored req)
  | pinStatus req => exact seen_of_mirrored (pinStatus_mirrored req)
  | pinLogin req => exact seen_of_mirrored (pinLogin_mirrored covers req)
  | listDevices req => exact seen_of_mirrored (listDevices_mirrored req)
  | revokeAllDevices req =>
      exact (revokeAllDevices_seen req).bind (fun _ _ => .answer (fun _ _ => id))
  | revokeDevice req deviceId =>
      exact (revokeDevice_seen req deviceId).bind (fun _ _ => .answer (fun _ _ => id))
  | forgetDevice req => exact seen_of_mirrored (forgetDevice_mirrored req)
  | logout req => exact seen_of_mirrored (logout_mirrored req)

/-- So is every request of the application, by cases on the request. -/
theorem run_seen (covers : Covers longest cfg) (request : AppRequest)
    : (request.run platform cfg).Mirrors (siteExec platform sessions) (Twins longest cfg.codeTtlMs)
        (request.run platform cfg) (SeenSame longest cfg.codeTtlMs request) := by
  cases request with
  | route request => exact handle_seen covers request
  | createSession req user options own =>
      exact seen_of_mirrored (createSessionFor_mirrored cfg.auth req user options)
  | requireFreshEmailAuth maxAgeMs req =>
      exact (requireFreshEmailAuth_mirrored maxAgeMs req).mono (fun _ _ _ _ held => ⟨held.1 ▸ rfl, held.2⟩)
  | listDevices userId =>
      refine seen_of_mirrored (mirrors_clock (fun now => ?_))
      exact mirrored_any (mirrored_oblivious ((Program.within_perform _ _).mpr ⟨rfl, rfl⟩))
  | revokeDevice userId deviceId =>
      refine Program.Mirrors.bind_related (Twins longest cfg.codeTtlMs) ?_
        (fun _ _ => .answer (fun _ _ still => ⟨rfl, still⟩))
      refine mirrors_clock (fun now => Program.Mirrors.of_related ?_ (fun _ _ => And.right))
      refine (revokeDevice_mirrors _ _ _).bind (fun revoked counted => ?_)
      exact (onEventIf_mirrors _ _ rfl rfl).bind (fun _ _ => .answer (fun _ _ => id))
  | revokeAllDevices userId =>
      refine Program.Mirrors.bind_related (Twins longest cfg.codeTtlMs) ?_
        (fun _ _ => .answer (fun _ _ still => ⟨rfl, still⟩))
      refine mirrors_clock (fun now => Program.Mirrors.of_related ?_ (fun _ _ => And.right))
      refine (revokeAllDevices_mirrors _ _ _).bind (fun count counted => ?_)
      refine Program.Mirrors.bind (onEventIf_mirrors true true rfl rfl) (fun _ _ => ?_)
      refine Program.Mirrors.bind_same (mirrored_untimed ?_) (fun _ => ?_)
      · exact ⟨fun _ => trivial, fun _ => trivial⟩
      refine Program.Mirrors.bind_same (mirrored_untimed ?_) (fun _ => .answer (fun _ _ => id))
      exact ⟨fun _ => trivial, fun _ => trivial⟩
  | hasPin userId =>
      refine seen_of_mirrored (mirrored_call_untimed (by exact fun _ => ⟨trivial, rfl⟩) (fun _ => ?_))
      exact mirrored_answer _

end DeviceAuth

end WorkersAuth

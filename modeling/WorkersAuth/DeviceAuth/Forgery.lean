import WorkersAuth.Atomic.Trace
import WorkersAuth.DeviceAuth.Deployment
import WorkersAuth.DeviceAuth.Footprint

/-! Forged requests and the gate.
Every route runs the gate before anything else. In cookie mode the gate refuses a request that
a foreign page has sent, when all it has done is to read the session of the request's cookie.
-/

namespace WorkersAuth

open Atomic Program DeviceAuth

namespace DeviceAuth

-----------------------------------------------------------------------------------------
-- Routes
-----------------------------------------------------------------------------------------

/-- The HTTP request that a route is given. -/
def Request.http : Request → HttpRequest
  | .emailStart req | .emailVerify req | .setPin req | .pinStatus req | .pinLogin req
  | .listDevices req | .revokeAllDevices req | .revokeDevice req _ | .forgetDevice req
  | .logout req => req

/-- The routes that are registered for GET; all others are for POST. -/
def Request.isGet : Request → Bool
  | .pinStatus _ | .listDevices _ => true
  | _ => false

variable (platform : Platform) (cfg : Config)

/-- Every route starts with the gate and answers its refusal, by cases on the route. -/
theorem handle_gated (request : Request)
    : ∃ rest, handle platform cfg request = gate platform cfg request.http >>= rest
      ∧ ∀ res, rest (.refused res) = .pure res := by
  cases request <;> exact ⟨_, rfl, fun _ => rfl⟩

-----------------------------------------------------------------------------------------
-- What a refused request has done
-----------------------------------------------------------------------------------------

/-- Calls that only read the device-auth tables. -/
def Op.ReadsTables : Op → Prop
  | .store (.findDevice _) => True
  | .store (.listDevices ..) => True
  | .store (.getActiveCredential ..) => True
  | .store _ => False
  | _ => True

/-- The calls of a request that has read its session and reported the failure of the check:
none sends or checks anything, sets a cookie, or creates or extends a session.
-/
def Op.Inert : Op → Prop
  | .session (.get _) => True
  | .session (.revoke _) => True
  | .store (.findDevice _) => True
  | .host .clock => True
  | .host (.onEvent (.csrfFailed _)) => True
  | _ => False

/-- Reading a session, through the device check or not, makes such calls only. -/
theorem StoreObject.get_inert (store : StoreObject) (sid : String)
    : (store.get sid).Within Op.Inert := by
  cases store with
  | plain => exact (within_perform _ _).mpr trivial
  | deviceBound =>
      refine .perform trivial (fun session => ?_)
      cases session with
      | none => trivial
      | some session =>
          dsimp only
          split
          · trivial
          · refine .perform trivial (fun device => .perform trivial (fun readAt => ?_))
            split
            · trivial
            · exact .perform trivial (fun _ => trivial)

/-- So does reading the cookie. -/
theorem readCookieSession_inert (config : AuthConfig) (req : HttpRequest)
    : (readCookieSession config req).Within Op.Inert := by
  unfold readCookieSession
  split
  · trivial
  · exact (StoreObject.get_inert _ _).bind (fun _ => trivial)

/-- The CSRF cookie is the one of the request. -/
theorem readCookieSession_csrfCookie (config : AuthConfig) (req : HttpRequest)
    : (readCookieSession config req).Gives
        (fun current => current.csrfCookie = req.cookie config.cookie.csrfCookieName) := by
  unfold readCookieSession
  split
  · rfl
  · exact gives_bind (fun _ => rfl)

/-- The session of a device that serves no more: it is found, bound to the device, and the device
is looked up and found dead at the clock's reading.
-/
def DeadSession (history : List (Call Op Op.Reply)) (sid : String) : Prop :=
  ∃ session deviceId device readAt,
    ⟨.session (.get sid), some session⟩ ∈ history
    ∧ sessionBoundDeviceId session = some deviceId
    ∧ ⟨.store (.findDevice deviceId), device⟩ ∈ history
    ∧ ⟨.host .clock, readAt⟩ ∈ history
    ∧ deviceServes device session readAt = false

/-- A device-bound store revokes only such sessions. -/
theorem deviceBoundGet_revokes {sid revoked : String} {calls : List (Call Op Op.Reply)}
    {rest : Handler (Option Session)} (leads : (deviceBoundGet sid).Leads calls rest)
    (made : ⟨.session (.revoke revoked), ()⟩ ∈ calls)
    : DeadSession calls revoked := by
  simp only [deviceBoundGet, perform_bind] at leads
  rcases leads_call.mp leads with ⟨rfl, _⟩ | ⟨found, _, rfl, afterFound⟩
  · simp at made
  cases found with
  | none =>
      obtain ⟨rfl, _⟩ := leads_pure.mp afterFound
      simp at made
  | some session =>
  cases bound : sessionBoundDeviceId session with
  | none =>
      simp only [bound] at afterFound
      obtain ⟨rfl, _⟩ := leads_pure.mp afterFound
      simp at made
  | some deviceId =>
  simp only [bound] at afterFound
  rcases leads_call.mp afterFound with ⟨rfl, _⟩ | ⟨device, _, rfl, afterDevice⟩
  · simp at made
  rcases leads_call.mp afterDevice with ⟨rfl, _⟩ | ⟨readAt, _, rfl, afterClock⟩
  · simp at made
  split at afterClock
  · obtain ⟨rfl, _⟩ := leads_pure.mp afterClock
    simp at made
  next dead =>
  rcases leads_call.mp afterClock with ⟨rfl, _⟩ | ⟨_, _, rfl, afterRevoke⟩
  · simp at made
  obtain ⟨rfl, _⟩ := leads_pure.mp afterRevoke
  obtain rfl : revoked = sid := by simpa using made
  exact ⟨session, deviceId, device, readAt, by simp, bound, by simp, by simp,
    Bool.eq_false_iff.mpr dead⟩

/-- So does reading the cookie through it. -/
theorem readCookieSession_revokes {config : AuthConfig} (bound : config.store = .deviceBound)
    {req : HttpRequest} {revoked : String} {calls : List (Call Op Op.Reply)}
    {rest : Handler CookieSession} (leads : (readCookieSession config req).Leads calls rest)
    (made : ⟨.session (.revoke revoked), ()⟩ ∈ calls)
    : DeadSession calls revoked := by
  simp only [readCookieSession, bound, StoreObject.get] at leads
  split at leads
  · obtain ⟨rfl, _⟩ := leads_pure.mp leads
    simp at made
  · cases rest with
    | call op next =>
        rcases leads_bind_call leads with ⟨inner, early⟩ | ⟨_, _, _, _, _, late⟩
        · exact deviceBoundGet_revokes early made
        · have halted := (leads_pure.mp late).2
          contradiction
    | pure current =>
        obtain ⟨first, second, found, rfl, early, late⟩ := leads_bind_pure.mp leads
        obtain ⟨rfl, _⟩ := leads_pure.mp late
        rw [List.append_nil] at made ⊢
        exact deviceBoundGet_revokes early made

-----------------------------------------------------------------------------------------
-- The gate
-----------------------------------------------------------------------------------------

/-- Reading the request's cookie, which is the first thing it does, has found a session. -/
def LiveCookie (req : HttpRequest) (history : List (Call Op Op.Reply)) : Prop :=
  ∃ first second current, history = first ++ second
    ∧ (readCookieSession cfg.auth req).Leads first (.pure current) ∧ current.session.isSome

/-- Another site can have sent the request: its origin is refused, or it carries a CSRF cookie or
a live session cookie without the matching CSRF header.
-/
def Forged (req : HttpRequest) (history : List (Call Op Op.Reply)) : Prop :=
  checkOrigin platform req cfg.auth.csrf.trustedOrigins ≠ none
  ∨ ((req.cookie cfg.auth.cookie.csrfCookieName).isSome ∨ LiveCookie cfg req history)
    ∧ checkDoubleSubmit platform req (req.cookie cfg.auth.cookie.csrfCookieName)
        cfg.auth.csrf.headerName ≠ none

variable {platform cfg}

/-- With the check enabled, a POST that has to carry an origin is refused for a bad origin, and for
a bad token when it carries anything ambient.
-/
theorem verifyCsrf_refuses {req : HttpRequest} {token : Option String} {authenticated : Bool}
    {config : CsrfConfig} (enabled : config.dangerouslyDisable = false) (post : req.method = "POST")
    (forged : checkOrigin platform req config.trustedOrigins ≠ none
      ∨ (token.isSome ∨ authenticated = true)
        ∧ checkDoubleSubmit platform req token config.headerName ≠ none)
    : ∃ failure, verifyCsrf platform req token authenticated true config = some failure := by
  have changing : isStateChanging req.method = true := by
    rw [post]
    decide +kernel
  simp only [verifyCsrf, enabled, changing, Bool.false_eq_true, if_false, Bool.not_true,
    Bool.and_false]
  cases origin : checkOrigin platform req config.trustedOrigins with
  | some failure => exact ⟨failure, rfl⟩
  | none =>
      obtain ⟨ambient, mismatch⟩ := forged.resolve_left (not_not.mpr origin)
      have ambient_eq : (authenticated || token.isSome) = true := by
        rw [Bool.or_eq_true]
        exact ambient.symm
      simp only [ambient_eq, Bool.not_true, Bool.false_eq_true, if_false]
      exact Option.ne_none_iff_exists'.mp mismatch

/-- What the history of a forged request is: it is still reading the cookie, or it has read it and
is to report the failure, or it has reported it and answers the refusal.
-/
theorem gate_forged {req : HttpRequest} {rest : Gate → Handler Response}
    {history : List (Call Op Op.Reply)} {final : Handler Response} (cookie : cfg.transport = .cookie)
    (enabled : cfg.auth.csrf.dangerouslyDisable = false) (post : req.method = "POST")
    (refuses : ∀ res, rest (.refused res) = .pure res)
    (leads : (gate platform cfg req >>= rest).Leads history final)
    (forged : Forged platform cfg req history)
    : (∃ reading, (readCookieSession cfg.auth req).Leads history reading
          ∧ ∀ response, final ≠ .pure response)
      ∨ ∃ first reading reason, (readCookieSession cfg.auth req).Leads first reading
          ∧ history = first ++ [⟨.host (.onEvent (.csrfFailed reason)), ()⟩]
          ∧ final = .pure (.error 403 "csrf_failed") := by
  simp only [gate, cookie, bind_assoc] at leads
  -- Once the cookie has been read and the check has failed, only the report is left.
  have reports {first second : List (Call Op Op.Reply)} {current : CookieSession}
      {failure : CsrfFailure} (split : history = first ++ second)
      (read : (readCookieSession cfg.auth req).Leads first (.pure current))
      (fails : verifyCsrf platform req current.csrfCookie current.session.isSome true
        cfg.auth.csrf = some failure)
      : (∃ reading, (readCookieSession cfg.auth req).Leads history reading
            ∧ ∀ response, final ≠ .pure response)
        ∨ ∃ first reading reason, (readCookieSession cfg.auth req).Leads first reading
            ∧ history = first ++ [⟨.host (.onEvent (.csrfFailed reason)), ()⟩]
            ∧ final = .pure (.error 403 "csrf_failed") := by
    subst split
    have later := read.after_first leads
    simp only [fails, perform_bind, call_bind, pure_eq, pure_bind, refuses] at later
    rcases leads_call.mp later with ⟨rfl, rfl⟩ | ⟨_, _, rfl, answered⟩
    · exact .inl ⟨.pure current, by simpa using read, fun _ => nofun⟩
    · obtain ⟨rfl, rfl⟩ := leads_pure.mp answered
      exact .inr ⟨first, .pure current, _, read, rfl, rfl⟩
  have token {first : List (Call Op Op.Reply)} {current : CookieSession}
      (read : (readCookieSession cfg.auth req).Leads first (.pure current))
      : current.csrfCookie = req.cookie cfg.auth.cookie.csrfCookieName :=
    (readCookieSession_csrfCookie cfg.auth req).answered read
  by_cases live : LiveCookie cfg req history
  · obtain ⟨first, second, current, split, read, there⟩ := live
    have ambient : checkOrigin platform req cfg.auth.csrf.trustedOrigins ≠ none
        ∨ (current.csrfCookie.isSome ∨ current.session.isSome = true)
          ∧ checkDoubleSubmit platform req current.csrfCookie cfg.auth.csrf.headerName ≠ none := by
      rw [token read]
      exact forged.imp_right (fun carried => ⟨.inr there, carried.2⟩)
    obtain ⟨failure, fails⟩ := verifyCsrf_refuses enabled post ambient
    exact reports split read fails
  · have fails {first : List (Call Op Op.Reply)} {current : CookieSession}
        (read : (readCookieSession cfg.auth req).Leads first (.pure current))
        : ∃ failure, verifyCsrf platform req current.csrfCookie current.session.isSome true
            cfg.auth.csrf = some failure := by
      refine verifyCsrf_refuses enabled post ?_
      rw [token read]
      exact forged.imp_right (fun carried => ⟨.inl (carried.1.resolve_right live), carried.2⟩)
    cases final with
    | call op next =>
        rcases leads_bind_call leads with ⟨inner, early⟩ | ⟨first, second, current, split, read, _⟩
        · exact .inl ⟨.call op inner, early, fun _ => nofun⟩
        · obtain ⟨failure, failed⟩ := fails read
          exact reports split read failed
    | pure response =>
        obtain ⟨first, second, current, split, read, _⟩ := leads_bind_pure.mp leads
        obtain ⟨failure, failed⟩ := fails read
        exact reports split read failed

-----------------------------------------------------------------------------------------
-- In every run
-----------------------------------------------------------------------------------------

/-- No call of the request has changed the device-auth tables. -/
def LeavesTables {σ : Type} (service : Service Op Op.Reply (World σ) Request Response)
    (world : World σ) (pool : Pool Op Op.Reply (World σ) Request Response) (index : Nat)
    : Prop :=
  ∀ earlier call following, service.Reachable world earlier
    → service.Performs earlier ⟨index, call⟩ following → service.Run following pool
    → following.world.db = earlier.world.db

/-- What a forged request comes to: it changes no table, it makes none but the calls listed as inert,
it revokes only sessions whose device is dead, and it is answered with the refusal.
-/
structure ForgeryInert {σ : Type} (service : Service Op Op.Reply (World σ) Request Response)
    (world : World σ) (pool : Pool Op Op.Reply (World σ) Request Response) (index : Nat)
    : Prop where
  tables : LeavesTables service world pool index
  calls : ∀ call ∈ pool.history index, Op.Inert call.op
  revokes : ∀ sid, ⟨.session (.revoke sid), ()⟩ ∈ pool.history index
    → DeadSession (pool.history index) sid
  answer : ∀ request response, pool.threads[index]? = some ⟨request, .pure response⟩
    → response = .error 403 "csrf_failed"

variable {σ : Type} {sessions : Semantics SessionCall SessionCall.Reply σ} {world : World σ}
  {pool : Pool Op Op.Reply (World σ) Request Response}

/-- A call that only reads tables leaves them. -/
theorem db_eq_of_readsTables {op : Op} {reply : op.Reply} {before after : World σ}
    (reads : Op.ReadsTables op) (executes : exec platform sessions op before reply after)
    : after.db = before.db := by
  cases op with
  | session call => exact executes.2
  | host call => exact congrArg World.db executes.2
  | store call =>
      cases call with
      | findDevice deviceId => exact (Prod.mk.inj (Option.some.inj executes.1)).2.symm
      | listDevices accountId now => exact (Prod.mk.inj (Option.some.inj executes.1)).2.symm
      | getActiveCredential accountId type =>
          exact (Prod.mk.inj (Option.some.inj executes.1)).2.symm
      | _ => exact reads.elim

/-- A request whose calls only read tables changes none. -/
theorem leavesTables_of_reads {index : Nat} (reads : ∀ call ∈ pool.history index, Op.ReadsTables call.op)
    : LeavesTables (deviceAuth platform cfg sessions) world pool index := by
  intro earlier call following _ performs run
  refine db_eq_of_readsTables (reads call ?_) performs.executes
  refine Service.mem_history_run run ?_
  rw [performs.history_eq, if_pos rfl]
  exact List.mem_append_right _ (List.mem_singleton_self _)

/-- What is inert reads at most a device. -/
theorem readsTables_of_inert {op : Op} (inert : Op.Inert op) : Op.ReadsTables op := by
  cases op with
  | session call => trivial
  | host call => trivial
  | store call =>
      cases call with
      | findDevice deviceId => trivial
      | _ => exact inert.elim

/-- The GET routes read tables only. -/
theorem handle_readsTables {request : Request} (get : request.isGet = true)
    : (handle platform cfg request).Within Op.ReadsTables := by
  have incidental {op : Op} (one : op.Incidental) : Op.ReadsTables op := by
    cases op with
    | session call => trivial
    | host call => trivial
    | store call =>
        cases call with
        | findDevice deviceId => trivial
        | _ => exact one.elim
  have gated (req : HttpRequest) : (gate platform cfg req).Within Op.ReadsTables :=
    (gate_incidental platform cfg req).mono (fun _ => incidental)
  cases request with
  | pinStatus req =>
      refine (gated req).bind (fun gated => ?_)
      split
      · trivial
      · trivial
      · exact .perform trivial (fun _ => trivial)
  | listDevices req =>
      refine (gated req).bind (fun gated => ?_)
      split
      · trivial
      · trivial
      · exact .perform trivial (fun _ => .perform trivial (fun _ => trivial))
  | _ => contradiction

/-- A forged POST is inert in cookie mode, whatever it carries and whatever else happens; and no GET
changes a table. The gate's history says what the forged request has done so far.
-/
theorem forgery_inert (cookie : cfg.transport = .cookie)
    (enabled : cfg.auth.csrf.dangerouslyDisable = false)
    (reach : (deviceAuth platform cfg sessions).Reachable world pool) {index : Nat}
    {request : Request} (serves : pool.requestOf index = some request)
    : (request.isGet = false → request.http.method = "POST"
        → Forged platform cfg request.http (pool.history index)
        → ForgeryInert (deviceAuth platform cfg sessions) world pool index)
      ∧ (request.isGet = true → LeavesTables (deviceAuth platform cfg sessions) world pool index) := by
  obtain ⟨⟨served, final⟩, found, same⟩ := Option.map_eq_some_iff.mp serves
  obtain rfl : served = request := same
  have leads : (handle platform cfg served).Leads (pool.history index) final :=
    reach.leads_thread found
  constructor
  · intro _ post forged
    obtain ⟨rest, handled, refuses⟩ := handle_gated platform cfg served
    rw [handled] at leads
    have stages := gate_forged cookie enabled post refuses leads forged
    have calls : ∀ call ∈ pool.history index, Op.Inert call.op := by
      rcases stages with ⟨reading, read, _⟩ | ⟨first, reading, reason, read, same, _⟩
      · exact (readCookieSession_inert cfg.auth served.http).made read
      · intro call member
        rw [same, List.mem_append, List.mem_singleton] at member
        rcases member with early | rfl
        · exact (readCookieSession_inert cfg.auth served.http).made read call early
        · trivial
    refine ⟨?_, calls, ?_, ?_⟩
    · exact leavesTables_of_reads (fun call member => readsTables_of_inert (calls call member))
    · intro sid revoked
      rcases stages with ⟨reading, read, _⟩ | ⟨first, reading, reason, read, same, _⟩
      · exact readCookieSession_revokes cfg.storeBound read revoked
      · rw [same] at revoked ⊢
        have early : ⟨.session (.revoke sid), ()⟩ ∈ first := by simpa using revoked
        obtain ⟨session, deviceId, device, readAt, got, bound, looked, clock, dead⟩ :=
          readCookieSession_revokes cfg.storeBound read early
        exact ⟨session, deviceId, device, readAt, List.mem_append_left _ got, bound,
          List.mem_append_left _ looked, List.mem_append_left _ clock, dead⟩
    · intro other response answered
      cases found.symm.trans answered
      rcases stages with ⟨_, _, running⟩ | ⟨_, _, _, _, _, same⟩
      · exact absurd rfl (running response)
      · cases same
        rfl
  · intro get
    exact leavesTables_of_reads ((handle_readsTables get).made leads)

end DeviceAuth

namespace Sample

/-- The sample deployment in cookie mode. -/
def cookieConfig : Config := { config with transport := .cookie }

abbrev cookieService : Service Op Op.Reply (World MemorySessions) Request Response :=
  deviceAuth Sample.platform cookieConfig memorySessions

/-- The account has a session of its own. -/
def signedIn : World MemorySessions :=
  { enrolled with
    sessions := ⟨[{
      sid := "YGFiY2RlZmdoaWprbG1ub3BxcnN0dXZ3eHl6e3x9fn8"
      userId := "user_42"
      subjectType := .user
      createdAt := 0
      lastSeenAt := 0
      idleExpiresAt := 1800000
      absoluteExpiresAt := 86400000
      scope := none
      metadata := some [("__auth", .obj [("rateLimitId", .str "user_42")])]
    }], 1, ids⟩ }

/-- A page of another site has the browser post to `/devices/revoke-all` with its cookies. -/
def forgedRequest : Request :=
  .revokeAllDevices { request [] with
    header := fun name => if name = "origin" then some "https://evil.example" else none
    cookie := fun name =>
      if name = "__Host-session" then some "YGFiY2RlZmdoaWprbG1ub3BxcnN0dXZ3eHl6e3x9fn8" else none }

end Sample

namespace DeviceAuth

open Sample in
/-- A forged request to revoke every device is answered with the refusal, and nothing happens. -/
theorem forgery_inert_played
    : ∃ state response, cookieService.Reachable signedIn state
        ∧ state.threads[0]? = some ⟨forgedRequest, .pure response⟩
        ∧ ForgeryInert cookieService signedIn state 0 := by
  obtain ⟨state, played, answered⟩ := (Option.any_eq_true ..).mp (show
      (cookieService.play (compute Sample.platform users) (fun _ _ => true)
        (cookieService.arrive (.start signedIn) forgedRequest) (calls 1000 0 2)).any
        (fun state => state.threads[0]?.any (fun
          | ⟨_, .pure _⟩ => true
          | _ => false)) = true by decide +kernel)
  have run : cookieService.RunWhen (fun _ _ => True)
      (cookieService.arrive (.start signedIn) forgedRequest) state :=
    Service.play_runWhen (compute_sound Sample.platform users) (fun _ _ _ => trivial) played
  have reach : cookieService.Reachable signedIn state := .head (.arrive forgedRequest) run.run
  have serves : state.requestOf 0 = some forgedRequest := Service.requestOf_run run.run rfl
  obtain ⟨⟨request, rest⟩, found, finished⟩ := (Option.any_eq_true ..).mp answered
  obtain rfl : request = forgedRequest := by simpa [Pool.requestOf, found] using serves
  cases rest with
  | call op next => contradiction
  | pure response =>
      refine ⟨state, response, reach, found, ?_⟩
      refine (forgery_inert rfl rfl reach serves).1 rfl rfl (.inl ?_)
      decide +kernel

end DeviceAuth

end WorkersAuth

import Mathlib.Tactic.Linarith
import WorkersAuth.Atomic.Ensures
import WorkersAuth.AuthRoutes
import WorkersAuth.DeviceAuth.Deployment
import WorkersAuth.MagicLink

/-! What becomes of a magic-link token when a request is refused for its CSRF check.
`POST /session` checks first and spends nothing. The middleware asks the providers first, so a
request that is refused can have spent its token before.
-/

namespace WorkersAuth

open Atomic DeviceAuth
open Atomic.Program (Evaluates evaluates_pure evaluates_call evaluates_bind)

section

variable {σ α : Type} {platform : Platform} {sessions : Semantics SessionCall SessionCall.Reply σ}
  {config : ResolvedAuthConfig} {req : HttpRequest} {options : MagicLinkOptions}
  {token tokenHash : String} {record : MagicLinkRecord} {start finish middle : LinkedWorld σ}
  {program : Handler α} {answer : α} {providers earlier later : List AuthProvider}

/-- What the magic-link store keeps under a hash. -/
def LinkedWorld.linkOf (world : LinkedWorld σ) (tokenHash : String) : Option MagicLinkRecord :=
  (world.links.find tokenHash).map MagicLinkRow.record

/-- The call takes no magic-link token. -/
def Op.TakesNone : Op → Prop
  | .host (.takeMagicLink _) => False
  | _ => True

/-- A clock reading, if it is one, is before the deadline. -/
def ReadsBefore (deadline : Millis) : (op : Op) → op.Reply → Prop
  | .host .clock, readAt => readAt < deadline
  | _, _ => True

/-- The token is in the store, and a request that carries it before its expiry is verified. -/
structure StillGood (platform : Platform) (sessions : Semantics SessionCall SessionCall.Reply σ)
    (world : LinkedWorld σ) (token : String) (record : MagicLinkRecord)
    : Prop where
  stored : world.linkOf (sha256Hex platform token) = some record
  authenticates : ∀ (options : MagicLinkOptions) (req : HttpRequest),
    options.carried req = some token → options.resolvesUser = false →
    (verifyMagicLink platform options req).Ensures
      (fun op before reply after =>
        execLinked platform sessions op before reply after ∧ ReadsBefore record.expiresAt op reply)
      world (fun user _ => user = some (options.userOf record.email))

/-- A provider other than a magic link: it takes no token, and it answers. -/
structure Bystander (platform : Platform) (sessions : Semantics SessionCall SessionCall.Reply σ)
    (provider : AuthProvider) (req : HttpRequest)
    : Prop where
  takesNone : (provider.verify req).Within Op.TakesNone
  answers : ∀ world, ∃ answer after,
    Evaluates (execLinked platform sessions) (provider.verify req) world answer after

/-- The request fails the CSRF check of a request without a session; its cookie session, if
any, authenticates nobody; and a magic link that it carries this token for comes after
providers that authenticate nobody.
-/
def TakesBeforeCheck (platform : Platform) (sessions : Semantics SessionCall SessionCall.Reply σ)
    (config : ResolvedAuthConfig) (req : HttpRequest) (start : LinkedWorld σ) (tokenHash : String)
    : Prop :=
  (verifyCsrf platform req (req.cookie config.cookie.csrfCookieName) false false config.csrf).isSome
  ∧ ∃ current middle earlier options later reached,
      Evaluates (execLinked platform sessions) (readCookieSession config.toAuthConfig req) start
        current middle
      ∧ current.session.bind sessionToUser = none
      ∧ config.providers = earlier ++ magicLink platform options :: later
      ∧ (options.carried req).map (sha256Hex platform) = some tokenHash
      ∧ Evaluates (execLinked platform sessions) (verifyProviders req earlier) middle none reached

-----------------------------------------------------------------------------------------
-- What the calls do to a token
-----------------------------------------------------------------------------------------

/-- Only taking a token changes the table. -/
theorem links_of_takesNone {op : Op} {reply : op.Reply} (quiet : op.TakesNone)
    (executes : execLinked platform sessions op start reply finish)
    : finish.links = start.links := by
  unfold execLinked at executes
  split at executes
  · exact quiet.elim
  · exact executes.2

/-- No call puts a token back. -/
theorem linkOf_none_step {op : Op} {reply : op.Reply}
    (executes : execLinked platform sessions op start reply finish)
    (gone : start.linkOf tokenHash = none)
    : finish.linkOf tokenHash = none := by
  unfold execLinked at executes
  split at executes
  · next taken =>
      have table := congrArg Prod.snd executes.1
      simp only [MagicLinkTable.take] at table
      simp only [LinkedWorld.linkOf, table, Tables.Table.find_deleteReturning]
      split
      · simp_all [LinkedWorld.linkOf]
      · exact gone
  · rw [LinkedWorld.linkOf, executes.2]
    exact gone

/-- A token that is gone stays gone, whatever is evaluated. -/
theorem linkOf_none_evaluates (run : Evaluates (execLinked platform sessions) program start answer finish)
    (gone : start.linkOf tokenHash = none)
    : finish.linkOf tokenHash = none :=
  run.preserves (fun _ _ step => step.elim)
    (fun _ _ _ _ executes kept => linkOf_none_step executes kept) gone

/-- Calls that take no token leave the table as it is, by induction on the program. -/
theorem links_evaluates (quiet : program.Within Op.TakesNone)
    (run : Evaluates (execLinked platform sessions) program start answer finish)
    : finish.links = start.links := by
  induction program generalizing start with
  | pure result => rw [(evaluates_pure.mp run).2]
  | call op next ih =>
      obtain ⟨reply, after, executes, continues⟩ := evaluates_call.mp run
      exact (ih reply (quiet.2 reply) continues).trans (links_of_takesNone quiet.1 executes)

-----------------------------------------------------------------------------------------
-- One provider after the other
-----------------------------------------------------------------------------------------

/-- Verifying a token that the request carries takes it, whatever else comes of it. -/
theorem verifyMagicLink_takes (carries : (options.carried req).map (sha256Hex platform) = some tokenHash)
    {user : Option AuthUser}
    (run : Evaluates (execLinked platform sessions) (verifyMagicLink platform options req) start user
      finish)
    : finish.linkOf tokenHash = none := by
  obtain ⟨token, carried, rfl⟩ := Option.map_eq_some_iff.mp carries
  simp only [verifyMagicLink, carried, Program.perform_bind] at run
  obtain ⟨taken, after, executes, continues⟩ := evaluates_call.mp run
  refine linkOf_none_evaluates continues ?_
  have table := congrArg Prod.snd executes.1
  simp only [MagicLinkTable.take] at table
  simp [LinkedWorld.linkOf, table]

/-- Verifying keeps every token but the one that the request carries. -/
theorem verifyMagicLink_keeps (other : (options.carried req).map (sha256Hex platform) ≠ some tokenHash)
    {user : Option AuthUser}
    (run : Evaluates (execLinked platform sessions) (verifyMagicLink platform options req) start user
      finish)
    : finish.linkOf tokenHash = start.linkOf tokenHash := by
  cases carried : options.carried req with
  | none =>
      simp only [verifyMagicLink, carried] at run
      rw [(evaluates_pure.mp run).2]
  | some token =>
      simp only [verifyMagicLink, carried, Program.perform_bind] at run
      obtain ⟨taken, after, executes, continues⟩ := evaluates_call.mp run
      have rest : finish.links = after.links := by
        refine links_evaluates ?_ continues
        cases taken with
        | none => trivial
        | some record =>
            refine .perform trivial (fun readAt => ?_)
            split
            · trivial
            · split
              · refine .perform trivial (fun user => ?_)
                cases user <;> trivial
              · trivial
      have table := congrArg Prod.snd executes.1
      simp only [MagicLinkTable.take] at table
      have apart : tokenHash ≠ sha256Hex platform token := by
        rintro rfl
        exact other (by rw [carried]; rfl)
      simp [LinkedWorld.linkOf, rest, table, apart]

/-- A verification that authenticates nobody: an error, null, or a subject that cannot be used. -/
def AuthenticatesNobody (verified : Except String (Option AuthUser)) : Prop :=
  ∀ user, verified = .ok (some user) → user.rateLimitId = ""

/-- The host answers without changing the world. -/
theorem evaluates_host {call : HostCall} {next : call.Reply → Handler α}
    (quiet : (Op.host call).TakesNone)
    : Evaluates (execLinked platform sessions) (Program.perform (Op.host call) >>= next) start answer
        finish
      ↔ ∃ reply, call.Answers platform reply
          ∧ Evaluates (execLinked platform sessions) (next reply) start answer finish := by
  have unchanged {reply : call.Reply} {after : LinkedWorld σ}
      : execLinked platform sessions (.host call) start reply after
        ↔ call.Answers platform reply ∧ after = start := by
    have fields : after = start ↔ after.base = start.base ∧ after.links = start.links := by
      cases after; cases start; simp
    cases call with
    | takeMagicLink tokenHash => exact quiet.elim
    | _ => rw [fields, ← and_assoc]; rfl
  simp only [Program.perform_bind, evaluates_call]
  constructor
  · rintro ⟨reply, after, executes, continues⟩
    obtain ⟨answers, rfl⟩ := unchanged.mp executes
    exact ⟨reply, answers, continues⟩
  · rintro ⟨reply, answers, continues⟩
    exact ⟨reply, start, unchanged.mpr ⟨answers, rfl⟩, continues⟩

/-- Reporting an event leaves the world as it is. -/
theorem evaluates_onEvent {event : AuthEvent} {next : Unit → Handler α}
    : Evaluates (execLinked platform sessions) (host.onEvent event >>= next) start answer finish
      ↔ Evaluates (execLinked platform sessions) (next ()) start answer finish := by
  have quiet : (Op.host (.onEvent event)).TakesNone := trivial
  rw [evaluates_host quiet]
  exact ⟨fun ⟨⟨⟩, _, continues⟩ => continues, fun continues => ⟨(), trivial, continues⟩⟩

/-- The first provider is asked; if it authenticates nobody, the others are. -/
theorem evaluates_verifyProviders_cons {provider : AuthProvider} {rest : List AuthProvider}
    {user : Option AuthUser}
    : Evaluates (execLinked platform sessions) (verifyProviders req (provider :: rest)) start user finish
      ↔ ∃ verified middle,
          Evaluates (execLinked platform sessions) (provider.verify req) start verified middle
          ∧ (AuthenticatesNobody verified
              ∧ Evaluates (execLinked platform sessions) (verifyProviders req rest) middle user finish
            ∨ ∃ found, verified = .ok (some found) ∧ found.rateLimitId ≠ "" ∧ user = some found
              ∧ finish = middle) := by
  simp only [verifyProviders]
  rw [evaluates_bind]
  refine exists_congr (fun verified => exists_congr (fun middle => and_congr_right (fun _ => ?_)))
  rcases verified with name | found | found
  · rw [evaluates_onEvent]
    simp [AuthenticatesNobody]
  · simp [AuthenticatesNobody]
  · by_cases unusable : found.rateLimitId = ""
    · simp only [unusable, if_true]
      rw [evaluates_onEvent]
      simp [AuthenticatesNobody, unusable]
    · simp [AuthenticatesNobody, unusable]

/-- A request whose providers lose a token reaches a magic link that it carries the token for,
with nobody authenticated before; by induction on the providers.
-/
theorem verifyProviders_loses
    (known : ∀ provider ∈ providers, (∃ options, provider = magicLink platform options)
      ∨ Bystander platform sessions provider req)
    {user : Option AuthUser}
    (run : Evaluates (execLinked platform sessions) (verifyProviders req providers) start user finish)
    (lost : finish.linkOf tokenHash ≠ start.linkOf tokenHash)
    : ∃ earlier options later reached, providers = earlier ++ magicLink platform options :: later
        ∧ (options.carried req).map (sha256Hex platform) = some tokenHash
        ∧ Evaluates (execLinked platform sessions) (verifyProviders req earlier) start none reached := by
  induction providers generalizing start with
  | nil => exact absurd (congrArg (LinkedWorld.linkOf · tokenHash) (evaluates_pure.mp run).2) lost
  | cons provider rest ih =>
      obtain ⟨verified, middle, first, outcome⟩ := evaluates_verifyProviders_cons.mp run
      by_cases here : ∃ options, provider = magicLink platform options
          ∧ (options.carried req).map (sha256Hex platform) = some tokenHash
      · obtain ⟨options, rfl, carries⟩ := here
        exact ⟨[], options, rest, start, rfl, carries, evaluates_pure.mpr ⟨rfl, rfl⟩⟩
      · have kept : middle.linkOf tokenHash = start.linkOf tokenHash := by
          rcases known provider List.mem_cons_self with ⟨options, rfl⟩ | bystander
          · obtain ⟨taken, after, verifies, answers⟩ := evaluates_bind.mp first
            rw [(evaluates_pure.mp answers).2]
            exact verifyMagicLink_keeps (fun carries => here ⟨options, rfl, carries⟩) verifies
          · rw [LinkedWorld.linkOf, links_evaluates bystander.takesNone first]
            rfl
        rcases outcome with ⟨nobody, continues⟩ | ⟨found, -, -, -, rfl⟩
        · obtain ⟨earlier, options, later, reached, rfl, carries, before⟩ :=
            ih (fun provider member => known provider (List.mem_cons_of_mem _ member)) continues
              (kept ▸ lost)
          refine ⟨provider :: earlier, options, later, reached, rfl, carries, ?_⟩
          exact evaluates_verifyProviders_cons.mpr ⟨verified, middle, first, .inl ⟨nobody, before⟩⟩
        · exact absurd kept lost

/-- Magic links answer. -/
theorem verifyMagicLink_answers (platform : Platform) (options : MagicLinkOptions) (req : HttpRequest)
    (start : LinkedWorld σ)
    : ∃ user finish, Evaluates (execLinked platform sessions) (verifyMagicLink platform options req)
        start user finish := by
  unfold verifyMagicLink
  cases options.carried req with
  | none => exact ⟨none, start, evaluates_pure.mpr ⟨rfl, rfl⟩⟩
  | some token =>
      simp only [Program.perform_bind]
      cases took : start.links.take (sha256Hex platform token) with
      | mk reply links =>
          let left : LinkedWorld σ := { start with links }
          refine ⟨none, left, evaluates_call.mpr ⟨reply, left, ⟨took.symm, rfl⟩, ?_⟩⟩
          cases reply with
          | none => exact evaluates_pure.mpr ⟨rfl, rfl⟩
          | some record =>
              -- Read at its expiry, the token authenticates nobody.
              have quiet : (Op.host .clock).TakesNone := trivial
              refine (evaluates_host quiet).mpr ⟨record.expiresAt, trivial, ?_⟩
              rw [if_pos le_rfl]
              exact evaluates_pure.mpr ⟨rfl, rfl⟩

/-- Asking providers that answer is answered, by induction on them. -/
theorem verifyProviders_answers
    (known : ∀ provider ∈ providers, (∃ options, provider = magicLink platform options)
      ∨ Bystander platform sessions provider req) (start : LinkedWorld σ)
    : ∃ user finish, Evaluates (execLinked platform sessions) (verifyProviders req providers) start
        user finish := by
  induction providers generalizing start with
  | nil => exact ⟨none, start, evaluates_pure.mpr ⟨rfl, rfl⟩⟩
  | cons provider rest ih =>
      have first : ∃ verified middle,
          Evaluates (execLinked platform sessions) (provider.verify req) start verified middle := by
        rcases known provider List.mem_cons_self with ⟨options, rfl⟩ | bystander
        · obtain ⟨user, middle, verifies⟩ := verifyMagicLink_answers platform options req start
          exact ⟨.ok user, middle, evaluates_bind.mpr ⟨user, middle, verifies, evaluates_pure.mpr ⟨rfl, rfl⟩⟩⟩
        · exact bystander.answers start
      obtain ⟨verified, middle, first⟩ := first
      by_cases nobody : AuthenticatesNobody verified
      · obtain ⟨user, finish, continues⟩ :=
          ih (fun provider member => known provider (List.mem_cons_of_mem _ member)) middle
        exact ⟨user, finish, evaluates_verifyProviders_cons.mpr ⟨verified, middle, first, .inl ⟨nobody, continues⟩⟩⟩
      · simp only [AuthenticatesNobody, not_forall] at nobody
        obtain ⟨user, rfl, usable⟩ := nobody
        exact ⟨some user, middle, evaluates_verifyProviders_cons.mpr
          ⟨_, middle, first, .inr ⟨user, rfl, usable, rfl, rfl⟩⟩⟩

/-- Providers that authenticate nobody, and then the rest of them; by induction on the first. -/
theorem evaluates_verifyProviders_append {user : Option AuthUser}
    (first : Evaluates (execLinked platform sessions) (verifyProviders req earlier) start none middle)
    (second : Evaluates (execLinked platform sessions) (verifyProviders req later) middle user finish)
    : Evaluates (execLinked platform sessions) (verifyProviders req (earlier ++ later)) start user
        finish := by
  induction earlier generalizing start with
  | nil =>
      obtain ⟨-, rfl⟩ := evaluates_pure.mp first
      exact second
  | cons provider rest ih =>
      obtain ⟨verified, after, asked, outcome⟩ := evaluates_verifyProviders_cons.mp first
      rcases outcome with ⟨nobody, continues⟩ | ⟨found, -, -, absurd', -⟩
      · exact evaluates_verifyProviders_cons.mpr ⟨verified, after, asked, .inl ⟨nobody, ih continues⟩⟩
      · cases absurd'

-----------------------------------------------------------------------------------------
-- The middleware and the route
-----------------------------------------------------------------------------------------

/-- A token that is in the store is good: taking it yields its record, and its address is
authenticated before its expiry.
-/
theorem stillGood_of_stored (stored : start.linkOf (sha256Hex platform token) = some record)
    : StillGood platform sessions start token record := by
  refine ⟨stored, ?_⟩
  intro options req carried plain
  simp only [verifyMagicLink, carried]
  refine .perform ⟨_, ⟨start.base, _⟩, ⟨rfl, rfl⟩, trivial⟩ (fun taken after executes => ?_)
  have found : (start.links.take (sha256Hex platform token)).1 = some record := by
    rw [← stored]
    simp only [MagicLinkTable.take, Tables.Table.deleteReturning, LinkedWorld.linkOf]
    cases start.links.find (sha256Hex platform token) <;> rfl
  have record_eq : taken = some record := (congrArg Prod.fst executes.1.1).trans found
  rw [record_eq]
  refine .perform ⟨record.expiresAt - 1, after, ⟨⟨trivial, rfl⟩, rfl⟩, ?_⟩ (fun readAt later reads => ?_)
  · show record.expiresAt - 1 < record.expiresAt
    linarith
  · have early : readAt < record.expiresAt := reads.2
    rw [if_neg (not_le.mpr early), plain]
    exact .answer rfl

/-- The CSRF cookie is the request's. -/
theorem csrfCookie_eq {current : CookieSession}
    (run : Evaluates (execLinked platform sessions) (readCookieSession config.toAuthConfig req) start
      current finish)
    : current.csrfCookie = req.cookie config.cookie.csrfCookieName := by
  unfold readCookieSession at run
  dsimp only at run
  split at run
  · rw [(evaluates_pure.mp run).1]
  · obtain ⟨found, middle, -, answers⟩ := evaluates_bind.mp run
    rw [(evaluates_pure.mp answers).1]

theorem deviceBoundGet_takesNone (sid : String) : (deviceBoundGet sid).Within Op.TakesNone := by
  refine .perform trivial (fun session => ?_)
  cases session with
  | none => trivial
  | some session =>
      dsimp only
      split
      · trivial
      · refine .perform trivial (fun device => .perform trivial (fun readAt => ?_))
        split
        · trivial
        · exact .perform trivial (fun _ => trivial)

/-- Reading the cookie session takes no token. -/
theorem readCookieSession_takesNone (config : AuthConfig) (req : HttpRequest)
    : (readCookieSession config req).Within Op.TakesNone := by
  unfold readCookieSession
  dsimp only
  split
  · trivial
  · refine .bind ?_ (fun _ => trivial)
    cases config.store with
    | plain => exact (Program.within_perform _ _).mpr trivial
    | deviceBound => exact deviceBoundGet_takesNone _

/-- The middleware answers csrf_failed when, after it has found out who the request is from, the
check fails.
-/
theorem evaluates_csrfRefused {optional : Bool}
    : Evaluates (execLinked platform sessions) (createMiddleware platform config optional req) start
        (.refused (.error 403 "csrf_failed")) finish
      ↔ ∃ auth, Evaluates (execLinked platform sessions) (resolveRequestAuth config req) start auth
            finish
          ∧ (verifyCsrf platform req auth.csrfCookie auth.session.isSome false config.csrf).isSome := by
  unfold createMiddleware
  rw [evaluates_bind]
  constructor
  · rintro ⟨auth, middle, resolves, continues⟩
    dsimp only at continues
    cases checked : verifyCsrf platform req auth.csrfCookie auth.session.isSome false config.csrf with
    | some failure =>
        simp only [checked, evaluates_onEvent] at continues
        obtain ⟨-, rfl⟩ := evaluates_pure.mp continues
        exact ⟨auth, resolves, by simp [checked]⟩
    | none =>
        simp only [checked] at continues
        split at continues
        · cases (evaluates_pure.mp continues).1
        · rw [evaluates_onEvent] at continues
          have answers := (evaluates_pure.mp continues).1
          simp [Response.error] at answers
        · obtain ⟨-, later, -, answers⟩ := evaluates_bind.mp continues
          cases (evaluates_pure.mp answers).1
  · rintro ⟨auth, resolves, fails⟩
    refine ⟨auth, finish, resolves, ?_⟩
    obtain ⟨failure, checked⟩ := Option.isSome_iff_exists.mp fails
    simp only [checked]
    exact evaluates_onEvent.mpr (evaluates_pure.mpr ⟨rfl, rfl⟩)

/-- Finding out who a request is from: the cookie session, or else the providers. -/
theorem evaluates_resolveRequestAuth {auth : ResolvedRequestAuth}
    : Evaluates (execLinked platform sessions) (resolveRequestAuth config req) start auth finish
      ↔ ∃ current middle,
          Evaluates (execLinked platform sessions) (readCookieSession config.toAuthConfig req) start
            current middle
          ∧ ((∃ user, current.session.bind sessionToUser = some user ∧ finish = middle
                ∧ auth = { user := some user, session := current.session, csrfCookie := current.csrfCookie })
            ∨ current.session.bind sessionToUser = none
              ∧ ∃ user, Evaluates (execLinked platform sessions) (verifyProviders req config.providers)
                  middle user finish
                ∧ auth = { user, session := none, csrfCookie := current.csrfCookie }) := by
  unfold resolveRequestAuth
  rw [evaluates_bind]
  refine exists_congr (fun current => exists_congr (fun middle => and_congr_right (fun _ => ?_)))
  cases resolved : current.session.bind sessionToUser with
  | some user => simp [resolved, and_comm]
  | none =>
      simp only [resolved, evaluates_bind]
      constructor
      · rintro ⟨user, after, asked, answers⟩
        obtain ⟨rfl, rfl⟩ := evaluates_pure.mp answers
        exact .inr ⟨trivial, user, asked, rfl⟩
      · rintro (⟨user, absurd', -⟩ | ⟨-, user, asked, rfl⟩)
        · cases absurd'
        · exact ⟨user, finish, asked, evaluates_pure.mpr ⟨rfl, rfl⟩⟩

/-- Whatever `POST /session` answers csrf_failed, it has taken no token. -/
theorem postSession_refused
    (run : Evaluates (execLinked platform sessions) (postSession platform config req) start
      (.error 403 "csrf_failed") finish)
    : finish.links = start.links := by
  obtain ⟨current, middle, reads, continues⟩ := evaluates_bind.mp run
  have kept := links_evaluates (readCookieSession_takesNone _ _) reads
  cases checked : verifyCsrf platform req current.csrfCookie current.session.isSome true config.csrf with
  | some failure =>
      simp only [checked, evaluates_onEvent] at continues
      rw [(evaluates_pure.mp continues).2, kept]
  | none =>
      simp only [checked] at continues
      obtain ⟨user, later, -, answers⟩ := evaluates_bind.mp continues
      cases user with
      | none =>
          simp only [evaluates_onEvent] at answers
          have answered := (evaluates_pure.mp answers).1
          simp [Response.error] at answered
      | some user =>
          obtain ⟨minted, _, -, answers⟩ := evaluates_bind.mp answers
          cases minted with
          | error text =>
              have answered := (evaluates_pure.mp answers).1
              simp [Response.error, Response.uncaught] at answered
          | ok session =>
              have answered := (evaluates_pure.mp answers).1
              simp [Response.error, okResponse] at answered

/-- A token that is taken before the check is spent: the magic link takes it, the later providers
answer, and then the check fails.
-/
theorem TakesBeforeCheck.spends (optional : Bool)
    (known : ∀ provider ∈ config.providers, (∃ options, provider = magicLink platform options)
      ∨ Bystander platform sessions provider req)
    (takes : TakesBeforeCheck platform sessions config req start tokenHash)
    : ∃ finish, Evaluates (execLinked platform sessions) (createMiddleware platform config optional req)
          start (.refused (.error 403 "csrf_failed")) finish
        ∧ finish.linkOf tokenHash = none := by
  obtain ⟨fails, current, middle, earlier, options, later, reached, reads, nobody, split, carries,
    before⟩ := takes
  obtain ⟨user, finish, continues⟩ := verifyProviders_answers
    (fun provider (member : provider ∈ magicLink platform options :: later) =>
      known provider (split ▸ List.mem_append_right _ member)) reached
  have gone : finish.linkOf tokenHash = none := by
    obtain ⟨verified, after, verifies, outcome⟩ := evaluates_verifyProviders_cons.mp continues
    obtain ⟨taken, spent, takes, answers⟩ := evaluates_bind.mp verifies
    have gone := verifyMagicLink_takes carries takes
    rw [← (evaluates_pure.mp answers).2] at gone
    rcases outcome with ⟨-, rest⟩ | ⟨found, -, -, -, rfl⟩
    · exact linkOf_none_evaluates rest gone
    · exact gone
  have asked := evaluates_verifyProviders_append before continues
  rw [← split] at asked
  refine ⟨finish, evaluates_csrfRefused.mpr ⟨_, evaluates_resolveRequestAuth.mpr
    ⟨current, middle, reads, .inr ⟨nobody, user, asked, rfl⟩⟩, ?_⟩, gone⟩
  simpa [csrfCookie_eq reads] using fails

/-- A token that a refused request has lost was taken before the check. -/
theorem takesBeforeCheck_of_lost {optional : Bool}
    (known : ∀ provider ∈ config.providers, (∃ options, provider = magicLink platform options)
      ∨ Bystander platform sessions provider req)
    (run : Evaluates (execLinked platform sessions) (createMiddleware platform config optional req)
      start (.refused (.error 403 "csrf_failed")) finish)
    (lost : finish.linkOf tokenHash ≠ start.linkOf tokenHash)
    : TakesBeforeCheck platform sessions config req start tokenHash := by
  obtain ⟨auth, resolves, fails⟩ := evaluates_csrfRefused.mp run
  obtain ⟨current, middle, reads, outcome⟩ := evaluates_resolveRequestAuth.mp resolves
  have kept : middle.linkOf tokenHash = start.linkOf tokenHash := by
    rw [LinkedWorld.linkOf, links_evaluates (readCookieSession_takesNone _ _) reads]
    rfl
  rcases outcome with ⟨user, -, rfl, -⟩ | ⟨nobody, user, asked, rfl⟩
  · exact absurd kept lost
  · obtain ⟨earlier, options, later, reached, split, carries, before⟩ :=
      verifyProviders_loses known asked (kept ▸ lost)
    refine ⟨?_, current, middle, earlier, options, later, reached, reads, nobody, split, carries,
      before⟩
    simpa [csrfCookie_eq reads] using fails

/-- A request refused with csrf_failed spends no token on `POST /session`; in the middleware it
spends none exactly when it is not the case that the token is taken before the check.
-/
theorem csrfRefusal_spends_nothing (optional : Bool)
    (known : ∀ provider ∈ config.providers, (∃ options, provider = magicLink platform options)
      ∨ Bystander platform sessions provider req)
    (stored : start.linkOf (sha256Hex platform token) = some record)
    : (∀ finish, Evaluates (execLinked platform sessions) (postSession platform config req) start
          (.error 403 "csrf_failed") finish →
        StillGood platform sessions finish token record)
      ∧ ((∀ finish, Evaluates (execLinked platform sessions)
            (createMiddleware platform config optional req) start
            (.refused (.error 403 "csrf_failed")) finish →
          StillGood platform sessions finish token record)
        ↔ ¬ TakesBeforeCheck platform sessions config req start (sha256Hex platform token)) := by
  refine ⟨?_, ?_, ?_⟩
  · intro finish run
    refine stillGood_of_stored ?_
    rw [LinkedWorld.linkOf, postSession_refused run]
    exact stored
  · intro spared takes
    obtain ⟨finish, run, gone⟩ := takes.spends optional known
    have kept := (spared finish run).stored
    rw [gone] at kept
    cases kept
  · intro spared finish run
    refine stillGood_of_stored ?_
    by_contra lost
    exact spared (takesBeforeCheck_of_lost known run (stored ▸ lost))

end

end WorkersAuth

namespace WorkersAuth.Sample

open DeviceAuth

/-- An application whose only provider is a magic link. -/
def linked : ResolvedAuthConfig where
  toAuthConfig := auth
  touchIntervalSec := 60
  providers := [magicLink platform { getToken := getMagicToken }]
  touchInterval_nonneg := by decide

def magicToken : String := "gIGCg4SFhoeIiYqLjI2Oj5CRkpOUlZaXmJmam5ydnp8"

/-- The table with the token in it. -/
def magicLinks : MagicLinkTable where
  rows := [
    { tokenHash := sha256Hex platform magicToken, email := "user42@example.com"
      expiresAt := 900000, createdAt := 0 }
  ]
  unique := List.nodup_singleton _

/-- A request with the token and a CSRF cookie, but without an origin. -/
def magicRequest : HttpRequest where
  method := "POST"
  url := "https://app.example.com/auth/session"
  header name := if name = "x-magic-token" then some magicToken else none
  cookie name := if name = "__Host-csrf" then some "stale" else none
  body := .body none

end WorkersAuth.Sample

namespace WorkersAuth

open Atomic DeviceAuth
open Atomic.Program (Evaluates evaluates_pure evaluates_bind)

/-- The request fails its CSRF check. -/
theorem Sample.magicRequest_fails (requireOrigin : Bool)
    : (verifyCsrf Sample.platform Sample.magicRequest (some "stale") false requireOrigin
        Sample.linked.csrf).isSome := by
  cases requireOrigin <;> decide +kernel

/-- The world before the request. -/
def Sample.linkedWorld : LinkedWorld MemorySessions := ⟨Sample.empty, Sample.magicLinks⟩

theorem Sample.magicToken_stored
    : Sample.linkedWorld.linkOf (sha256Hex Sample.platform Sample.magicToken)
      = some { email := "user42@example.com", expiresAt := 900000 } := by
  simp [LinkedWorld.linkOf, Sample.linkedWorld, Sample.magicLinks, Tables.Table.find, MagicLinkRow.record]

theorem Sample.linked_known
    : ∀ provider ∈ Sample.linked.providers, (∃ options, provider = magicLink Sample.platform options)
      ∨ Bystander Sample.platform memorySessions provider Sample.magicRequest := by
  intro provider member
  rw [Sample.linked, List.mem_singleton] at member
  exact .inl ⟨_, member⟩

/-- `POST /session` refuses the request, and its token is still good. -/
theorem csrfRefusal_spends_nothing_route
    : ∃ finish, Evaluates (execLinked Sample.platform memorySessions)
          (postSession Sample.platform Sample.linked Sample.magicRequest) Sample.linkedWorld
          (.error 403 "csrf_failed") finish
        ∧ StillGood Sample.platform memorySessions finish Sample.magicToken
          { email := "user42@example.com", expiresAt := 900000 } := by
  obtain ⟨failure, checked⟩ := Option.isSome_iff_exists.mp (Sample.magicRequest_fails true)
  have run : Evaluates (execLinked Sample.platform memorySessions)
      (postSession Sample.platform Sample.linked Sample.magicRequest) Sample.linkedWorld
      (.error 403 "csrf_failed") Sample.linkedWorld := by
    refine evaluates_bind.mpr ⟨{ session := none, csrfCookie := some "stale" }, _,
      evaluates_pure.mpr ⟨rfl, rfl⟩, ?_⟩
    simp only [Option.isSome_none, checked]
    exact evaluates_onEvent.mpr (evaluates_pure.mpr ⟨rfl, rfl⟩)
  exact ⟨_, run, (csrfRefusal_spends_nothing false Sample.linked_known
    Sample.magicToken_stored).1 _ run⟩

/-- The middleware refuses the same request, and its token is gone. -/
theorem csrfRefusal_spends_token
    : ¬ ∀ finish, Evaluates (execLinked Sample.platform memorySessions)
          (createMiddleware Sample.platform Sample.linked false Sample.magicRequest)
          Sample.linkedWorld (.refused (.error 403 "csrf_failed")) finish →
        StillGood Sample.platform memorySessions finish Sample.magicToken
          { email := "user42@example.com", expiresAt := 900000 } := by
  intro claimed
  have takes : TakesBeforeCheck Sample.platform memorySessions Sample.linked Sample.magicRequest
      Sample.linkedWorld (sha256Hex Sample.platform Sample.magicToken) := by
    refine ⟨Sample.magicRequest_fails false, { session := none, csrfCookie := some "stale" }, _, [], _,
      [], _, evaluates_pure.mpr ⟨rfl, rfl⟩, rfl, rfl, ?_, evaluates_pure.mpr ⟨rfl, rfl⟩⟩
    have carried : MagicLinkOptions.carried { getToken := getMagicToken } Sample.magicRequest
        = some Sample.magicToken := by decide +kernel
    rw [carried]
    rfl
  obtain ⟨finish, run, gone⟩ := takes.spends false Sample.linked_known
  have kept := (claimed finish run).stored
  rw [gone] at kept
  cases kept

end WorkersAuth

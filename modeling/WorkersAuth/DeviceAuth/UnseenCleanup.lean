import WorkersAuth.DeviceAuth.Deployment
import WorkersAuth.DeviceAuth.TwinRequests
import WorkersAuth.Simulations.Silent

/-! `cleanup` is unseen.
A site serves its visits one at a time, and may be cleaned up between them. Whatever the cleaned site can
show, it can show without being cleaned up, and the other way round: the same answers, the same cookies,
messages and questions to the application, the same locks.
-/

namespace WorkersAuth

open Atomic Tables Simulations DeviceAuth

namespace DeviceAuth

section

variable {σ : Type} {platform : Platform} {sessions : Semantics SessionCall SessionCall.Reply σ} {cfg : Config}
  {longest horizon : Millis} {site start last : Site σ}

-----------------------------------------------------------------------------------------
-- Visits
-----------------------------------------------------------------------------------------

/-- What a site is visited for: a request of the application or of its clients, or the session of an id, as
the device-bound store reads it.
-/
inductive Visit where
  | ask (request : AppRequest)
  | read (sid : String)

inductive Seen where
  | answer (answer : AppAnswer)
  | session (found : Option Session)

variable (platform cfg) in
def Visit.run : Visit → Handler Seen
  | .ask request => do return .answer (← request.run platform cfg)
  | .read sid => do return .session (← deviceBoundGet sid)

/-- What is seen of it. -/
def Visit.seen : Visit → Seen → Seen
  | .ask request, .answer answer => .answer (request.seen answer)
  | _, seen => seen

/-- The clock shows a moment. -/
def Site.at (site : Site σ) (moment : Millis) : Site σ := { site with now := moment }

/-- The site is cleaned up: `cleanup(now, horizon)`. -/
def Site.cleaned (site : Site σ) (horizon : Millis) : Site σ :=
  { site with world := { site.world with db := (site.world.db.cleanup site.now horizon).2 } }

variable (platform sessions cfg) in
/-- A visit shows what is seen of its answer; time that passes, and a cleanup with one of the horizons, show
nothing.
-/
inductive SiteStep (horizons : Millis → Prop) : Site σ → Option (Visit × Seen) → Site σ → Prop
  | visit {before after : Site σ} {visit : Visit} {seen : Seen}
    (runs : Program.Evaluates (siteExec platform sessions) (visit.run platform cfg) before seen after)
    : SiteStep horizons before (some (visit, visit.seen seen)) after
  | wait {before : Site σ} {moment : Millis} (late : before.now ≤ moment)
    : SiteStep horizons before none (before.at moment)
  | cleanup {before : Site σ} {horizon : Millis} (allowed : horizons horizon)
    : SiteStep horizons before none (before.cleaned horizon)

/-- What a run leaves behind: what the host was told and what it replied, the locks, and the session store. -/
structure Outcome (σ : Type) where
  now : Millis
  told : List (Call HostCall HostCall.Reply)
  guards : Table String GuardRow (fun row => row.accountId)
  sessions : σ

def Site.outcome (site : Site σ) : Outcome σ where
  now := site.now
  told := site.told
  guards := site.world.db.guards
  sessions := site.world.sessions

theorem Twins.outcome {codeTtlMs : Millis} {one two : Site σ} (twins : Twins longest codeTtlMs one two)
    : two.outcome = one.outcome := by
  simp only [Site.outcome, twins.now, twins.told, twins.sessions, twins.alike.guards]

-----------------------------------------------------------------------------------------
-- What a cleanup keeps
-----------------------------------------------------------------------------------------

/-- A cleanup only deletes rows. -/
theorem Sound.cleanup {codeTtlMs now moment : Millis} {devices credentials : List String} {db : Database}
    (sound : Sound codeTtlMs now devices credentials db) (horizon : Millis)
    : Sound codeTtlMs now devices credentials (db.cleanup moment horizon).2 := by
  have kept {α : Type} {found : Option α} {keeps : α → Bool} {row : α}
      (still : found.filter keeps = some row) : found = some row :=
    (Option.filter_eq_some_iff.mp still).1
  constructor
  · intro bucket row found
    simp only [Database.cleanup, Table.find_deleteWhere] at found
    exact sound.counts bucket row (kept found)
  · intro email row found
    simp only [Database.cleanup, Table.find_deleteWhere] at found
    exact sound.ends email row (kept found)
  · intro email row found
    simp only [Database.cleanup, Table.find_deleteWhere] at found
    exact sound.recent email row (kept found)
  · intro deviceId row found
    simp only [Database.cleanup, Table.find_deleteWhere] at found
    exact sound.devices deviceId row (kept (kept (kept found)))
  · intro credentialId row found
    simp only [Database.cleanup, Table.find_deleteWhere] at found
    exact sound.credentials credentialId row (kept found)

/-- A cleaned site is a twin of what it was. -/
theorem twins_cleaned {codeTtlMs : Millis}
    (sound : Sound codeTtlMs site.now site.devices site.credentials site.world.db)
    (long : longest ≤ horizon)
    : Twins longest codeTtlMs (site.cleaned horizon) site where
  now := rfl
  sessions := rfl
  devices := rfl
  credentials := rfl
  told := rfl
  alike := cleanup_alike site.world.db long
  firstSound := sound.cleanup horizon
  secondSound := sound

/-- A visit is seen to be answered the same by twins, by cases on the visit. -/
theorem visit_mirrors (covers : Covers longest cfg) (visit : Visit)
    : (visit.run platform cfg).Mirrors (siteExec platform sessions) (Twins longest cfg.codeTtlMs)
        (visit.run platform cfg)
        (fun seen shown last final =>
          visit.seen seen = visit.seen shown ∧ Twins longest cfg.codeTtlMs last final) := by
  cases visit with
  | ask request =>
      exact (run_seen covers request).bind
        (fun _ _ => .answer (fun _ _ held => ⟨congrArg Seen.answer held.1, held.2⟩))
  | read sid =>
      exact (deviceBoundGet_mirrored sid).bind_same (fun _ => .answer (fun _ _ still => ⟨rfl, still⟩))

/-- Twins show the same, though one may be cleaned up more often: a cleanup is matched by doing nothing. -/
theorem twins_simulate (covers : Covers longest cfg) (horizons others : Millis → Prop)
    (long : ∀ horizon, horizons horizon → longest ≤ horizon)
    : Simulates (SiteStep platform sessions cfg horizons) (SiteStep platform sessions cfg others)
        (Twins longest cfg.codeTtlMs) := by
  intro before other label after twins step
  cases step with
  | @visit _ visit seen runs =>
      obtain ⟨shown, final, mirrored, same, still⟩ := visit_mirrors covers visit before other twins seen after runs
      refine ⟨final, ?_, still⟩
      rw [same]
      exact .single (.visit mirrored)
  | @wait moment late =>
      exact ⟨other.at moment, .single (.wait (twins.now.le.trans late)), twins.later late⟩
  | @cleanup horizon allowed =>
      have cleaned := twins_cleaned twins.firstSound (long horizon allowed)
      exact ⟨other, .nil, {
        twins with
        alike := cleaned.alike.trans twins.alike
        firstSound := cleaned.firstSound
      }⟩

/-- The stores of a site that is new, or has been served and cleaned up since, are sound. -/
theorem sound_of_shows (covers : Covers longest cfg) {horizons : Millis → Prop}
    (long : ∀ horizon, horizons horizon → longest ≤ horizon) {labels : List (Visit × Seen)}
    (new : start.world.db = .empty) (run : Shows (SiteStep platform sessions cfg horizons) start labels site)
    : Sound cfg.codeTtlMs site.now site.devices site.credentials site.world.db := by
  have sound : Sound cfg.codeTtlMs start.now start.devices start.credentials start.world.db := by
    have empty := sound_empty cfg.codeTtlMs start.now
    rw [new]
    exact { empty with
      devices := fun deviceId row found => by cases found
      credentials := fun credentialId row found => by cases found }
  have twins : Twins longest cfg.codeTtlMs start start :=
    ⟨rfl, rfl, rfl, rfl, rfl, .refl _, sound, sound⟩
  obtain ⟨_, _, reached⟩ := (twins_simulate covers horizons horizons long).shows run twins
  exact reached.firstSound

/-- A cleanup is unseen: whatever a site can show once it is cleaned up, and however often it is cleaned up
later, it can show without, and the other way round. For every site that starts with empty tables and serves
one visit at a time, with a clock that does not go back and ids that are new, cleaned up at any moments with
horizons that cover every window. What is shown leaves out how many devices were revoked.
-/
theorem cleanup_unseen (covers : Covers longest cfg) {early : List (Visit × Seen)}
    (new : start.world.db = .empty)
    (run : Shows (SiteStep platform sessions cfg (longest ≤ ·)) start early site) (long : longest ≤ horizon)
    (labels : List (Visit × Seen)) (outcome : Outcome σ)
    : (∃ last, Shows (SiteStep platform sessions cfg (longest ≤ ·)) (site.cleaned horizon) labels last
        ∧ last.outcome = outcome)
      ↔ ∃ last, Shows (SiteStep platform sessions cfg (fun _ => False)) site labels last
        ∧ last.outcome = outcome := by
  have sound := sound_of_shows covers (fun _ => id) new run
  have twins : Twins longest cfg.codeTtlMs (site.cleaned horizon) site := twins_cleaned sound long
  constructor
  · rintro ⟨last, shows, rfl⟩
    obtain ⟨next, shown, still⟩ := (twins_simulate covers _ _ (fun _ => id)).shows shows twins
    exact ⟨next, shown, still.outcome⟩
  · rintro ⟨last, shows, rfl⟩
    obtain ⟨next, shown, still⟩ := (twins_simulate covers _ _ (fun _ => False.elim)).shows shows twins.symm
    exact ⟨next, shown, still.outcome⟩

end

end DeviceAuth

-----------------------------------------------------------------------------------------
-- A site that is cleaned up
-----------------------------------------------------------------------------------------

namespace Sample

/-- A site after a call, if its clock and the ids used up allow it. -/
def proceed (before : Site MemorySessions) : (op : Op) → op.Reply → World MemorySessions →
    Option (Site MemorySessions)
  | .store call, _, world =>
      if (∀ deviceId ∈ call.creates, deviceId ∉ before.devices)
          ∧ ∀ credentialId ∈ call.enrols, credentialId ∉ before.credentials then
        some { before with
          world
          devices := call.creates ++ before.devices
          credentials := call.enrols ++ before.credentials }
      else none
  | .session _, _, world => some { before with world }
  | .host .clock, read, world =>
      if before.now ≤ read then some { before.tells .clock read with now := read, world } else none
  | .host call, reply, world => some { before.tells call reply with world }

/-- The calls of a site, computed. -/
def siteCompute : Runner Op Op.Reply (Site MemorySessions) Outside :=
  fun outside op before =>
    (compute platform users outside op before.world).bind (fun (reply, world) =>
      (proceed before op reply world).map (fun after => (reply, after)))

/-- What is computed is a call of the site, by cases on the call. -/
theorem siteCompute_sound : siteCompute.Sound (siteExec platform memorySessions) := by
  intro outside op before reply after computed
  obtain ⟨⟨answer, world⟩, made, proceeds⟩ := Option.bind_eq_some_iff.mp computed
  obtain ⟨site, allowed, same⟩ := Option.map_eq_some_iff.mp proceeds
  cases same
  have executes := compute_sound platform users _ _ _ _ _ made
  rcases op with call | call | call
  · simp only [proceed, Option.ite_none_right_eq_some, Option.some.injEq] at allowed
    obtain ⟨⟨devices, credentials⟩, rfl⟩ := allowed
    exact ⟨executes, devices, credentials, rfl⟩
  · cases allowed
    exact ⟨executes, rfl⟩
  · cases call
    case clock =>
      simp only [proceed, Option.ite_none_right_eq_some, Option.some.injEq] at allowed
      obtain ⟨late, rfl⟩ := allowed
      exact ⟨executes, late, rfl⟩
    all_goals
      cases allowed
      exact ⟨executes, rfl⟩

/-- A site that nobody has visited. -/
def newSite : Site MemorySessions := ⟨0, empty, [], [], []⟩

/-- Someone asks for a code. -/
def codeVisit : Visit := .ask (.route startRequest)

end Sample

namespace DeviceAuth

/-- A code is sent, and deleted a day later with the counters of its sending; it goes on as if it had not been.
-/
theorem cleanup_unseen_played
    : ∃ site : Site MemorySessions,
        site.world.db.codes.rows.length = 1 ∧ site.world.db.limits.rows.length = 2
        ∧ (site.cleaned 86400000).world.db.codes.rows = []
        ∧ (site.cleaned 86400000).world.db.limits.rows = []
        ∧ ∀ labels outcome,
          (∃ last, Shows (SiteStep Sample.platform memorySessions Sample.config ((3600000 : Millis) ≤ ·))
              (site.cleaned 86400000) labels last ∧ last.outcome = outcome)
          ↔ ∃ last, Shows (SiteStep Sample.platform memorySessions Sample.config (fun _ => False)) site
              labels last ∧ last.outcome = outcome := by
  have sends : ((Sample.codeVisit.run Sample.platform Sample.config).compute Sample.siteCompute { now := 0 }
      Sample.newSite).any (fun served =>
        let site := served.2.at 86400000
        served.2.now = 0
        ∧ site.world.db.codes.rows.length = 1 ∧ site.world.db.limits.rows.length = 2
        ∧ (site.cleaned 86400000).world.db.codes.rows.length = 0
        ∧ (site.cleaned 86400000).world.db.limits.rows.length = 0) = true := by
    decide +kernel
  obtain ⟨⟨seen, served⟩, computed, holds⟩ := (Option.any_eq_true _ _).mp sends
  simp only [decide_eq_true_eq] at holds
  obtain ⟨moment, codes, limits, noCodes, noLimits⟩ := holds
  have runs := Program.compute_sound Sample.siteCompute_sound computed
  have late : served.now ≤ 86400000 := moment.le.trans (by decide)
  have waits : SiteStep Sample.platform memorySessions Sample.config ((3600000 : Millis) ≤ ·) served none
      (served.at 86400000) := .wait late
  have run := Shows.step (SiteStep.visit runs) (Shows.single waits)
  have covers : Covers 3600000 Sample.config := by
    refine ⟨by decide +kernel, by decide +kernel, by decide +kernel, fun breaker configured => ?_⟩
    cases configured
  exact ⟨served.at 86400000, codes, limits, List.length_eq_zero_iff.mp noCodes,
    List.length_eq_zero_iff.mp noLimits, cleanup_unseen covers rfl run (by decide)⟩

end DeviceAuth

end WorkersAuth

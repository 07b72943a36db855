import Mathlib.Tactic.Linarith
import WorkersAuth.Neon.Deployment

/-! How often one isolate asks the JWKS endpoint.
A refetch for an unknown key is rate limited by the time of the last attempt. A fetch for want
of a fresh key set is not: it follows an attempt that brought no keys as soon as the next
verification arrives.
-/

namespace WorkersAuth.Neon

open Atomic

variable {Key : Type} {runtime : Runtime Key} {options : NeonAuthOptions}
  {isolate before next : Isolate Key} {input : TurnInput} {at' later now : Millis}

/-- The times at which the fetches so far were started. -/
def Isolate.starts (isolate : Isolate Key) : List Millis :=
  isolate.flights.map Flight.startedAt

/-- A turn of `loadKeys` that starts a fetch. -/
def LoadStarts : Call (Turn Key) Turn.Ret → Prop
  | ⟨.resolveKey _, .keys (.start _)⟩ => True
  | ⟨.kvAnswered _, some (.start _)⟩ => True
  | _ => False

/-- The last attempt, if there was one, is long enough ago. -/
def Isolate.Due (isolate : Isolate Key) (options : NeonAuthOptions) : Prop :=
  isolate.flights = []
    ∨ isolate.entry.lastAttemptAt + options.minRefetchIntervalSec * sec ≤ isolate.now

/-- The last attempt has brought a key, and nothing older has taken the place of the set. -/
def Isolate.Supplied (isolate : Isolate Key) : Prop :=
  isolate.entry.keys ≠ [] ∧ isolate.entry.lastAttemptAt ≤ isolate.entry.fetchedAt

/-- When `loadKeys` starts a fetch, the last attempt has brought a key or is long enough ago;
when it does so after asking KV, that attempt is long enough ago.
-/
def LoadsDue (options : NeonAuthOptions)
    (pool : Pool (Turn Key) Turn.Ret (Isolate Key) HttpRequest (Option AuthUser))
    (made : Entry (Turn Key) Turn.Ret)
    : Prop :=
  match made.call with
  | ⟨.resolveKey _, .keys (.start _)⟩ => pool.world.Supplied ∨ pool.world.Due options
  | ⟨.kvAnswered _, some (.start _)⟩ => pool.world.Due options
  | _ => True

/-- `fetchJwks` joins and changes nothing, or starts a fetch now. -/
theorem fetchJwks_starts (isolate : Isolate Key) (at' : Millis)
    : (isolate.fetchJwks at').2 = isolate
      ∨ (∃ flight, (isolate.fetchJwks at').1 = .start flight)
        ∧ (isolate.fetchJwks at').2.starts = isolate.starts ++ [at']
        ∧ (isolate.fetchJwks at').2.entry.lastAttemptAt = at' := by
  unfold Isolate.fetchJwks
  split
  · exact .inl rfl
  · exact .inr ⟨⟨_, rfl⟩, by simp [Isolate.starts], rfl⟩

/-- Settling a promise starts nothing. -/
@[simp] theorem settle_starts (isolate : Isolate Key) (flight : Nat) (result : Option (List Json))
    : (isolate.settle flight result).starts = isolate.starts := by
  simp only [Isolate.starts, Isolate.settle]
  apply List.ext_getElem?
  intro index
  rw [List.getElem?_map, List.getElem?_map, List.getElem?_modify, Option.map_eq_map, Option.map_map]
  by_cases here : flight = index <;> simp [here, Function.comp_def]

/-- What a turn does to the fetches: nothing, or it starts one, which is due when it is the
rate limited one; by cases on the turn.
-/
theorem Turn.compute_starts {taken : Turn Key} {reply : taken.Ret}
    (computed : taken.compute runtime options input isolate = some (reply, next))
    : next.starts = isolate.starts ∧ next.entry.lastAttemptAt = isolate.entry.lastAttemptAt
      ∨ (LoadStarts ⟨taken, reply⟩
          ∨ isolate.entry.lastAttemptAt + options.minRefetchIntervalSec * sec ≤ isolate.now)
        ∧ next.starts = isolate.starts ++ [input.later]
        ∧ next.entry.lastAttemptAt = input.later := by
  cases taken with
  | resolveKey cacheKey =>
      simp only [Turn.compute, Isolate.resolveKey, Option.some.injEq] at computed
      split at computed
      · cases computed
        exact .inl ⟨rfl, rfl⟩
      · simp only [Isolate.loadKeys] at computed
        split at computed
        · cases computed
          exact .inl ⟨rfl, rfl⟩
        · split at computed
          · cases computed
            exact .inl ⟨rfl, rfl⟩
          · cases computed
            rcases fetchJwks_starts isolate input.later with same | ⟨⟨flight, started⟩, starts, last⟩
            · exact .inl ⟨by rw [same], by rw [same]⟩
            · exact .inr ⟨.inl (by rw [started]; trivial), starts, last⟩
  | kvAnswered at' =>
      simp only [Turn.compute] at computed
      split at computed
      · cases computed
        exact .inl ⟨rfl, rfl⟩
      · next cached _ =>
          have ends : reply = some (isolate.kvAnswered options at' input.later cached).1
              ∧ next = (isolate.kvAnswered options at' input.later cached).2 := by
            simpa [eq_comm] using computed
          obtain ⟨rfl, rfl⟩ := ends
          have fetches : (isolate.kvAnswered options at' input.later cached) = isolate.fetchJwks input.later
              ∨ ∃ document, (isolate.kvAnswered options at' input.later cached).2 = isolate.install document := by
            unfold Isolate.kvAnswered
            split
            · split
              · exact .inr ⟨_, rfl⟩
              · exact .inl rfl
            · exact .inl rfl
          rcases fetches with fetches | ⟨document, installs⟩
          · rw [fetches]
            rcases fetchJwks_starts isolate input.later with same | ⟨⟨flight, started⟩, starts, last⟩
            · exact .inl ⟨by rw [same], by rw [same]⟩
            · exact .inr ⟨.inl (by rw [started]; trivial), starts, last⟩
          · rw [installs]
            exact .inl ⟨rfl, rfl⟩
  | received =>
      simp only [Turn.compute, Isolate.received, Option.some.injEq] at computed
      split at computed <;>
        · cases computed
          exact .inl ⟨rfl, rfl⟩
  | kvPut document =>
      cases computed
      exact .inl ⟨rfl, rfl⟩
  | settle flight result =>
      cases computed
      exact .inl ⟨settle_starts isolate flight result, rfl⟩
  | joined flight =>
      obtain ⟨result, _, same⟩ := Option.map_eq_some_iff.mp computed
      cases same
      exact .inl ⟨rfl, rfl⟩
  | retry =>
      simp only [Turn.compute, Isolate.retry, Option.some.injEq] at computed
      split at computed
      · cases computed
        exact .inl ⟨rfl, rfl⟩
      · next due =>
          cases computed
          rcases fetchJwks_starts isolate input.later with same | ⟨-, starts, last⟩
          · exact .inl ⟨by rw [same], by rw [same]⟩
          · exact .inr ⟨.inr (by linarith), starts, last⟩
  | remember cacheKey key =>
      cases computed
      exact .inl ⟨rfl, rfl⟩
  | clock =>
      cases computed
      exact .inl ⟨rfl, rfl⟩

/-- A set that a fetch has brought serves for longer than the refetch interval, so `loadKeys`
does not start the next fetch before that.
-/
theorem resolveKey_due {cacheKey : String} {flight : Nat} {reply : Resolution Key}
    (ordered : options.minRefetchIntervalSec ≤ options.jwksCacheTtlSec)
    (computed : (Turn.resolveKey cacheKey).compute runtime options input isolate
      = some (reply, next))
    (starts : reply = .keys (.start flight)) (supplied : isolate.Supplied)
    : isolate.Due options := by
  subst starts
  have stale : ¬ isolate.Fresh options isolate.now := by
    intro fresh
    simp only [Turn.compute, Isolate.resolveKey, Option.some.injEq] at computed
    split at computed
    · cases computed
    · rw [Isolate.loadKeys, if_pos fresh] at computed
      cases computed
  have lapsed : options.jwksCacheTtlSec * sec ≤ isolate.now - isolate.entry.fetchedAt := by
    by_contra early
    exact stale ⟨supplied.1, not_le.mp early⟩
  have interval : options.minRefetchIntervalSec * sec ≤ options.jwksCacheTtlSec * sec :=
    mul_le_mul_of_nonneg_right ordered (by norm_num [sec])
  have attempt := supplied.2
  exact .inr (by linarith)

/-- The fetches so far are far enough apart, and the entry knows the last of them. -/
structure Spaced (options : NeonAuthOptions) (isolate : Isolate Key) : Prop where
  apart : isolate.starts.Pairwise (fun first second =>
    first + options.minRefetchIntervalSec * sec ≤ second)
  last : ∀ start ∈ isolate.starts, start ≤ isolate.entry.lastAttemptAt
  past : ∀ start ∈ isolate.starts, start ≤ isolate.now

theorem spaced_fresh (now : Millis) : Spaced options (Isolate.fresh now : Isolate Key) where
  apart := .nil
  last start member := by cases member
  past start member := by cases member

/-- A turn keeps the fetches apart when a fetch for want of keys is due. -/
theorem Spaced.exec {taken : Turn Key} {reply : taken.Ret} (spaced : Spaced options isolate)
    (executes : taken.exec runtime options isolate reply next)
    (due : LoadStarts ⟨taken, reply⟩ → isolate.Due options)
    : Spaced options next := by
  obtain ⟨input, middle, forward, onward, computed, rfl⟩ := executes
  have starts_eq : (middle.wait input.after).starts = middle.starts := rfl
  have last_eq : (middle.wait input.after).entry = middle.entry := rfl
  have until' : isolate.now ≤ input.after := forward.trans onward
  rcases Turn.compute_starts computed with ⟨starts, last⟩ | ⟨allowed, starts, last⟩
  · refine ⟨?_, ?_, ?_⟩
    · rw [starts_eq, starts]
      exact spaced.apart
    · rw [starts_eq, last_eq, starts, last]
      exact spaced.last
    · rw [starts_eq, starts]
      exact fun start member => (spaced.past start member).trans until'
  · -- Every earlier fetch is at most as late as the last attempt, which is long enough ago.
    have far : ∀ start ∈ isolate.starts,
        start + options.minRefetchIntervalSec * sec ≤ input.later := by
      intro start member
      have known := spaced.last start member
      have limited (long : isolate.entry.lastAttemptAt + options.minRefetchIntervalSec * sec
          ≤ isolate.now) : start + options.minRefetchIntervalSec * sec ≤ input.later := by
        linarith
      rcases allowed with loads | long
      · rcases due loads with none' | long
        · simp [Isolate.starts, none'] at member
        · exact limited long
      · exact limited long
    refine ⟨?_, ?_, ?_⟩
    · rw [starts_eq, starts, List.pairwise_append]
      refine ⟨spaced.apart, List.pairwise_singleton _ _, ?_⟩
      intro start member new fresh
      rw [List.mem_singleton.mp fresh]
      exact far start member
    · rw [starts_eq, last_eq, starts, last]
      intro start member
      rcases List.mem_append.mp member with old | new
      · exact (spaced.past start old).trans forward
      · exact (List.mem_singleton.mp new).le
    · rw [starts_eq, starts]
      intro start member
      rcases List.mem_append.mp member with old | new
      · exact (spaced.past start old).trans until'
      · exact (List.mem_singleton.mp new).le.trans onward

/-- In every run in which `loadKeys` starts its fetches as described, any two fetches start at
least the refetch interval apart, whatever the endpoint answers.
-/
theorem fetches_apart
    {pool : Pool (Turn Key) Turn.Ret (Isolate Key) HttpRequest (Option AuthUser)}
    (ordered : options.minRefetchIntervalSec ≤ options.jwksCacheTtlSec)
    (run : (provider runtime options).RunWhen (LoadsDue options) (.start (.fresh now)) pool)
    : pool.world.starts.Pairwise (fun first second =>
        first + options.minRefetchIntervalSec * sec ≤ second) := by
  have spaced : Spaced options pool.world := by
    induction run with
    | refl => exact spaced_fresh now
    | tail _ step ih =>
        cases step with
        | arrive request => exact ih
        | @perform made after due performs =>
            refine ih.exec performs.executes ?_
            obtain ⟨input, middle, -, -, computed, -⟩ := performs.executes
            obtain ⟨thread, taken, reply⟩ := made
            intro loads
            match taken, reply, loads with
            | .resolveKey cacheKey, .keys (.start flight), _ =>
                rcases due with supplied | due
                · exact resolveKey_due ordered computed rfl supplied
                · exact due
            | .kvAnswered at', some (.start flight), _ => exact due
  exact spaced.apart

end WorkersAuth.Neon

namespace WorkersAuth.Sample

open Atomic Neon

/-- Computing the condition on a fetch of `loadKeys`, as far as it is due for its time. -/
def loadsDue (pool : Pool (Turn String) Turn.Ret (Isolate String) HttpRequest (Option AuthUser))
    (made : Entry (Turn String) Turn.Ret)
    : Bool :=
  let due := pool.world.flights.isEmpty
    || decide (pool.world.entry.lastAttemptAt + neonOptions.minRefetchIntervalSec * sec ≤ pool.world.now)
  match made.call with
  | ⟨.resolveKey _, .keys (.start _)⟩ => due
  | ⟨.kvAnswered _, some (.start _)⟩ => due
  | _ => true

/-- A request is refused for want of keys, the endpoint being out of order, and then another. -/
def outage (gap : Millis) : List (Move HttpRequest TurnInput) :=
  [.arrive probeRequest, .perform 0 (before 0 0), .perform 0 (before 0 0 (some jwksOutage)),
    .perform 0 (before 0 gap), .arrive probeRequest, .perform 1 (before gap gap)]

end WorkersAuth.Sample

namespace WorkersAuth.Neon

open Atomic

/-- The condition as computed is the condition. -/
theorem loadsDue_sound {pool : Pool (Turn String) Turn.Ret (Isolate String) HttpRequest (Option AuthUser)}
    {made : Entry (Turn String) Turn.Ret} (passed : Sample.loadsDue pool made = true)
    : LoadsDue Sample.neonOptions pool made := by
  have due (computed : (pool.world.flights.isEmpty
      || decide (pool.world.entry.lastAttemptAt + Sample.neonOptions.minRefetchIntervalSec * sec
        ≤ pool.world.now)) = true) : pool.world.Due Sample.neonOptions := by
    simpa [Isolate.Due] using computed
  unfold LoadsDue
  split
  · next loads =>
      simp only [Sample.loadsDue, loads] at passed
      exact .inr (due passed)
  · next loads =>
      simp only [Sample.loadsDue, loads] at passed
      exact due passed
  · trivial

/-- With the second request a minute later, two fetches start a minute apart. -/
theorem fetches_apart_played
    : ∃ pool, (provider Sample.runtime Sample.neonOptions).RunWhen (LoadsDue Sample.neonOptions)
          (.start (.fresh 0)) pool
        ∧ pool.world.starts = [0, 60000]
        ∧ pool.world.starts.Pairwise (fun first second =>
          first + Sample.neonOptions.minRefetchIntervalSec * sec ≤ second) := by
  obtain ⟨pool, played, shown⟩ := (Option.any_eq_true ..).mp
    (show ((provider Sample.runtime Sample.neonOptions).play
        (runner Sample.runtime Sample.neonOptions) Sample.loadsDue (.start (.fresh 0))
        (Sample.outage 60000)).any (fun pool => pool.world.starts = [0, 60000]) = true by
      decide +kernel)
  have run := Service.play_runWhen runner_sound (fun _ _ => loadsDue_sound) played
  exact ⟨pool, run, of_decide_eq_true shown, fetches_apart (by norm_num [Sample.neonOptions]) run⟩

/-- With the second request a second later, two fetches start a second apart. -/
theorem fetches_early
    : ¬ ∀ pool, (provider Sample.runtime Sample.neonOptions).Reachable (.fresh 0) pool →
        pool.world.starts.Pairwise (fun first second =>
          first + Sample.neonOptions.minRefetchIntervalSec * sec ≤ second) := by
  intro claimed
  obtain ⟨pool, played, shown⟩ := (Option.any_eq_true ..).mp
    (show ((provider Sample.runtime Sample.neonOptions).play
        (runner Sample.runtime Sample.neonOptions) (fun _ _ => true) (.start (.fresh 0))
        (Sample.outage 1000)).any (fun pool => pool.world.starts = [0, 1000]) = true by
      decide +kernel)
  have apart := claimed pool (Service.reachable_of_play runner_sound played)
  rw [of_decide_eq_true shown, List.pairwise_pair] at apart
  norm_num [Sample.neonOptions, sec] at apart

end WorkersAuth.Neon

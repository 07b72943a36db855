import WorkersAuth.Neon.Deployment
import WorkersAuth.Neon.Verification

/-! How long a key is used after the key set it came with was fetched.
`loadKeys` looks at the age of the set, but a key that has been imported is used without asking
it, and a key whose import outlasts its set is remembered beside the next one.
-/

namespace WorkersAuth.Neon

open Atomic

variable {Key : Type} {runtime : Runtime Key} {options : NeonAuthOptions}
  {isolate next : Isolate Key} {now : Millis}
  {pool later : Pool (Turn Key) Turn.Ret (Isolate Key) HttpRequest (Option AuthUser)}
  {index : Nat} {request : HttpRequest} {user : AuthUser}

/-- The entry's key set has the key that goes by this name. -/
def Held (runtime : Runtime Key) (isolate : Isolate Key) (name : String) (key : Key) : Prop :=
  ∃ jwk ∈ isolate.entry.keys, ∃ kid alg,
    name = importedName runtime kid alg ∧ importJwk runtime jwk alg = some key

/-- A remembered key answers while the entry's key set is fresh, a key is remembered while that
set has it, and a fetch is joined in the time that a set would serve from its start.
-/
def KeysCurrent (runtime : Runtime Key) (options : NeonAuthOptions) (isolate : Isolate Key)
    : Call (Turn Key) Turn.Ret → Prop
  | ⟨.resolveKey _, .cached _⟩ => isolate.Fresh options isolate.now
  | ⟨.remember name key, _⟩ => Held runtime isolate name key
  | call =>
      ∀ flight (started : Flight), sourceOf call = some (.join flight) →
        isolate.flights[flight]? = some started →
        isolate.now - started.startedAt < options.jwksCacheTtlSec * sec

/-- Every remembered key is in the entry's key set. -/
def AllHeld (runtime : Runtime Key) (isolate : Isolate Key) : Prop :=
  ∀ name key, isolate.entry.imported name = some key → Held runtime isolate name key

/-- The key that the verification goes on with is in a document fetched after a time. -/
def KeyFetchedAfter (runtime : Runtime Key) (options : NeonAuthOptions) (request : HttpRequest)
    (history : List (Call (Turn Key) Turn.Ret)) (documents : List Document) (time : Millis)
    : Prop :=
  ∃ token decoded alg key,
    Signed runtime options request token decoded alg key
    ∧ Used (importedName runtime (decoded.header.get "kid") alg) key history
    ∧ ∃ document ∈ documents, time < document.fetchedAt
      ∧ ∃ jwk ∈ document.keys, importJwk runtime jwk alg = some key

/-- A fetch changes neither the key set nor the remembered keys. -/
theorem fetchJwks_entry (isolate : Isolate Key) (at' : Millis)
    : (isolate.fetchJwks at').2.entry.keys = isolate.entry.keys
      ∧ (isolate.fetchJwks at').2.entry.imported = isolate.entry.imported := by
  rcases fetchJwks_cases isolate at' with ⟨_, _, joins⟩ | ⟨_, _, entry, _⟩
  · rw [joins]
    exact ⟨rfl, rfl⟩
  · rw [entry]
    exact ⟨rfl, rfl⟩

/-- Keys are remembered while the set has them and forgotten when another takes its place. -/
theorem allHeld_maintained
    : Maintains runtime options (KeysCurrent runtime options) (AllHeld runtime) := by
  intro taken reply before after held met executes
  obtain ⟨input, middle, _, _, computed, rfl⟩ := executes
  intro name key found
  change Held runtime middle name key
  rcases Turn.compute_cases computed with rfl | rfl | ⟨document, rfl⟩ | ⟨flight, result, rfl, rfl⟩
    | ⟨remembered, new, rfl, rfl⟩
  · exact held name key found
  · obtain ⟨keys, imported⟩ := fetchJwks_entry before input.later
    have known := held name key (imported ▸ found)
    unfold Held at known ⊢
    rw [keys]
    exact known
  · contradiction
  · exact held name key found
  · simp only [Isolate.remember, Isolate.wait] at found
    split at found
    · next same =>
        cases found
        subst same
        exact met
    · exact held name key found

/-- A call made at `since` counts on documents of the time that a key set serves. -/
theorem recency_current (positive : 0 < options.jwksCacheTtlSec) (since : Millis)
    : Recency options (KeysCurrent runtime options) since
        (since - options.jwksCacheTtlSec * sec < ·) where
  mono first second ordered := fun after => after.trans_le ordered
  start time later := by
    have ttl : 0 < options.jwksCacheTtlSec * sec := mul_pos positive (by norm_num [sec])
    linarith
  fresh at' fetchedAt later valid := by linarith
  join isolate call flight started now met joins there := by
    have early : isolate.now - started.startedAt < options.jwksCacheTtlSec * sec := by
      obtain ⟨taken, reply⟩ := call
      cases taken with
      | resolveKey cacheKey =>
          cases reply with
          | cached key => cases joins
          | askKv at' => cases joins
          | keys source => exact met flight started joins there
      | remember name key => cases joins
      | kvAnswered at' => exact met flight started joins there
      | retry => exact met flight started joins there
      | received => cases joins
      | kvPut document => cases joins
      | settle flight result => cases joins
      | joined flight => cases joins
      | clock => cases joins
    linarith

/-- A key that was remembered is in the entry's fresh document, and one that was picked is in the
document it was picked from.
-/
theorem Finds.fetched {since : Millis} {history : List (Call (Turn Key) Turn.Ret)} {kid : Option Json}
    {alg : JwsAlgorithm} {key : Key}
    (finds : Finds runtime (fun _ => True) (KeysCurrent runtime options) (AllHeld runtime) since
      (since - options.jwksCacheTtlSec * sec < ·) (importedName runtime kid alg) history (some key)
      isolate)
    : ∃ document ∈ isolate.documents, since - options.jwksCacheTtlSec * sec < document.fetchedAt
        ∧ ∃ jwk ∈ document.keys, importJwk runtime jwk alg = some key := by
  obtain ⟨_, imported | recalled⟩ := finds key rfl
  · obtain ⟨_, another, document, jwk, _, named, installed, after, picked, imports⟩ := imported
    obtain rfl := (importedName_injective named).2
    exact ⟨document, installed, after, jwk, mem_of_pick picked, imports⟩
  · obtain ⟨before, precedes, custody, held, began, fresh, remembered⟩ := recalled
    obtain ⟨jwk, member, _, another, named, imports⟩ := held _ key remembered
    obtain rfl := (importedName_injective named).2
    have young : before.now - before.entry.fetchedAt < options.jwksCacheTtlSec * sec := fresh.2
    have after : since - options.jwksCacheTtlSec * sec < before.entry.fetchedAt := by linarith
    exact ⟨_, precedes.documents (custody.entry fresh.1), after, jwk, member, imports⟩

/-- In every run of verifications in which the keys stay current, the key that a user is accepted
with is in a document that was fetched less than the time a key set serves before the call.
-/
theorem acceptedKey_fetched (positive : 0 < options.jwksCacheTtlSec)
    (past : (provider runtime options).RunWhen
      (fun pool entry => KeysCurrent runtime options pool.world entry.call)
      (.start (.fresh now)) pool)
    (called : pool.threads[index]? = some ⟨request, verify runtime options request⟩)
    (run : (provider runtime options).RunWhen
      (fun pool entry => KeysCurrent runtime options pool.world entry.call) pool later)
    (answered : later.Answered index request (some user))
    : KeyFetchedAfter runtime options request (later.history index) later.world.documents
        (pool.world.now - options.jwksCacheTtlSec * sec) := by
  have verifies {world : Isolate Key} {history : List (Call (Turn Key) Turn.Ret)} (request : HttpRequest)
      : Secures runtime options (fun _ => True) (KeysCurrent runtime options) (AllHeld runtime)
          (Accepts runtime options (fun _ => True) (KeysCurrent runtime options) (AllHeld runtime)
            world.now (world.now - options.jwksCacheTtlSec * sec < ·) request)
          history (verify runtime options request) world :=
    verify_secures (recency_current positive _) allHeld_maintained (fun _ _ _ _ => trivial) le_rfl
  have initially : AllHeld runtime (Isolate.fresh now) := by
    intro name key found
    contradiction
  -- Up to the call every thread does its part, whatever it ends with.
  have before : (provider runtime options).Honouring
      (custodyContract runtime (fun _ => True) (KeysCurrent runtime options) (AllHeld runtime))
      (fun _ _ _ _ => True) pool :=
    past.honouring .start (Service.honouring_start ⟨custody_fresh now, initially⟩)
      (fun _ request _ _ _ _ => (verifies request).mono (fun _ _ _ _ => trivial))
  -- From the call on, what the thread called ends with is known as well.
  have after : (provider runtime options).Honouring
      (custodyContract runtime (fun _ => True) (KeysCurrent runtime options) (AllHeld runtime))
      (fun other history answer world => other = index →
        Accepts runtime options (fun _ => True) (KeysCurrent runtime options) (AllHeld runtime)
          pool.world.now (pool.world.now - options.jwksCacheTtlSec * sec < ·) request history answer
          world) later := by
    refine run.honouring (.run .start past.run) ⟨before.1, fun other thread found => ?_⟩ ?_
    · by_cases own : other = index
      · subst own
        cases called.symm.trans found
        exact (verifies request).mono (fun _ _ _ accepts _ => accepts)
      · exact (before.2 other thread found).mono (fun _ _ _ _ same => absurd same own)
    · intro other request world _ new _
      refine (verifies request).mono (fun _ _ _ _ same => ?_)
      have inside := (List.getElem?_eq_some_iff.mp called).1
      omega
  obtain ⟨token, decoded, alg, key, _, signed, finds, _⟩ := after.answered answered rfl user rfl
  exact ⟨token, decoded, alg, key, signed, (finds key rfl).1, finds.fetched⟩

end WorkersAuth.Neon

namespace WorkersAuth.Sample

open Atomic Neon

/-- The requests of one isolate. -/
abbrev Verifications :=
  Pool (Turn String) Turn.Ret (Isolate String) HttpRequest (Option AuthUser)

/-- Computing whether the keys stay current, where no fetch is joined. -/
def keysCurrent (pool : Verifications) (made : Entry (Turn String) Turn.Ret) : Bool :=
  match made.call with
  | ⟨.resolveKey _, .cached _⟩ => decide (pool.world.Fresh neonOptions pool.world.now)
  | ⟨.remember name key, _⟩ =>
      name = "k1|EdDSA"
        && pool.world.entry.keys.any (fun jwk => importJwk verifyingRuntime jwk .EdDSA = some key)
  | call =>
      match sourceOf call with
      | some (.join _) => false
      | _ => true

/-- A request with the issuer's token is answered after a fetch, and time passes. -/
def firstVisit (gap : Millis) : List (Move HttpRequest TurnInput) :=
  [.arrive jwtRequest, .perform 0 (before 0 0), .perform 0 (before 0 0 (some jwksResponse)),
    .perform 0 (before 0 0), .perform 0 (before 0 0), .perform 0 (before 0 gap)]

/-- Another such request is answered with the key that is remembered. -/
def secondVisit (gap : Millis) : List (Move HttpRequest TurnInput) :=
  Move.times 2 1 (before gap gap)

/-- A user has been returned for the second request. -/
def accepted (pool : Verifications) : Bool :=
  match pool.answerOf 1 with
  | some (_, some _) => true
  | _ => false

/-- The second request comes when it should, and is accepted, with one document fetched at 0. -/
def visits (check : Verifications → Entry (Turn String) Turn.Ret → Bool) (gap : Millis) : Bool :=
  ((provider verifyingRuntime neonOptions).play (runner verifyingRuntime neonOptions) check
    (.start (.fresh 0)) (firstVisit gap)).any (fun pool =>
      pool.threads.length = 1 && pool.world.now = gap
        && ((provider verifyingRuntime neonOptions).play (runner verifyingRuntime neonOptions) check
          ((provider verifyingRuntime neonOptions).arrive pool jwtRequest) (secondVisit gap)).any
          (fun later => later.world.documents.map Document.fetchedAt = [0] && accepted later))

end WorkersAuth.Sample

namespace WorkersAuth.Neon

open Atomic

/-- The condition as computed is the condition. -/
theorem keysCurrent_sound {pool : Sample.Verifications} {made : Entry (Turn String) Turn.Ret}
    (passed : Sample.keysCurrent pool made = true)
    : KeysCurrent Sample.verifyingRuntime Sample.neonOptions pool.world made.call := by
  unfold KeysCurrent
  split
  · next called =>
      simp only [Sample.keysCurrent, called] at passed
      exact of_decide_eq_true passed
  · next called =>
      simp only [Sample.keysCurrent, called, Bool.and_eq_true, List.any_eq_true] at passed
      obtain ⟨named, jwk, member, imports⟩ := passed
      exact ⟨jwk, member, some (.str "k1"), .EdDSA, of_decide_eq_true named, of_decide_eq_true imports⟩
  · next call notCached notRemembered =>
      intro flight started joins
      have refused : Sample.keysCurrent pool made = false := by
        unfold Sample.keysCurrent
        split
        · next cached => exact absurd cached (notCached _ _)
        · next remembered => exact absurd remembered (notRemembered _ _ _)
        · rw [joins]
      exact absurd passed (by rw [refused]; decide)

/-- A request that has just arrived is about to be verified. -/
theorem called_arrive (pool : Pool (Turn Key) Turn.Ret (Isolate Key) HttpRequest (Option AuthUser))
    (request : HttpRequest)
    : ((provider runtime options).arrive pool request).threads[pool.threads.length]?
      = some ⟨request, verify runtime options request⟩ := by
  simp [Service.arrive, provider]

/-- Two visits as computed, as a run up to the second request and a run from there. -/
theorem visits_run {check : Sample.Verifications → Entry (Turn String) Turn.Ret → Bool}
    {condition : Sample.Verifications → Entry (Turn String) Turn.Ret → Prop} {gap : Millis}
    (checks : ∀ pool entry, check pool entry = true → condition pool entry)
    (computed : Sample.visits check gap = true)
    : ∃ pool later user,
        (provider Sample.verifyingRuntime Sample.neonOptions).RunWhen condition (.start (.fresh 0)) pool
        ∧ pool.threads[1]?
          = some ⟨Sample.jwtRequest, verify Sample.verifyingRuntime Sample.neonOptions Sample.jwtRequest⟩
        ∧ (provider Sample.verifyingRuntime Sample.neonOptions).RunWhen condition pool later
        ∧ later.Answered 1 Sample.jwtRequest (some user)
        ∧ pool.world.now = gap ∧ later.world.documents.map Document.fetchedAt = [0] := by
  unfold Sample.visits at computed
  obtain ⟨first, played, computed⟩ := (Option.any_eq_true ..).mp computed
  simp only [Bool.and_eq_true, decide_eq_true_eq] at computed
  obtain ⟨⟨one, at_⟩, computed⟩ := computed
  obtain ⟨later, onward, computed⟩ := (Option.any_eq_true ..).mp computed
  simp only [Bool.and_eq_true, decide_eq_true_eq] at computed
  obtain ⟨documents, accepted⟩ := computed
  have run := Service.play_runWhen runner_sound checks onward
  have arrived := @called_arrive _ Sample.verifyingRuntime Sample.neonOptions first Sample.jwtRequest
  rw [one] at arrived
  simp only [Sample.accepted] at accepted
  split at accepted
  · next request user answer =>
      have answered := Pool.answerOf_eq_some.mp answer
      have same := Service.requestOf_run run.run (congrArg (Option.map Thread.request) arrived)
      rw [Pool.requestOf, answered] at same
      cases same
      have past := (Service.play_runWhen runner_sound checks played).tail (.arrive Sample.jwtRequest)
      exact ⟨_, later, user, past, arrived, run, answered, at_, documents⟩
  · cases accepted

/-- The visits, where both tokens are decoded. -/
theorem visits_eq (check : Sample.Verifications → Entry (Turn String) Turn.Ret → Bool) (gap : Millis)
    : Sample.visits check gap
      = ((provider Sample.verifyingRuntime Sample.neonOptions).play
        (runner Sample.verifyingRuntime Sample.neonOptions) check
        { world := .fresh 0
          threads := [⟨Sample.jwtRequest,
            verifyDecoded Sample.verifyingRuntime Sample.neonOptions Sample.jwtDecoded⟩]
          log := [] }
        (Sample.firstVisit gap).tail).any (fun pool =>
          pool.threads.length = 1 && pool.world.now = gap
            && ((provider Sample.verifyingRuntime Sample.neonOptions).play
              (runner Sample.verifyingRuntime Sample.neonOptions) check
              { pool with
                threads := pool.threads ++ [⟨Sample.jwtRequest,
                  verifyDecoded Sample.verifyingRuntime Sample.neonOptions Sample.jwtDecoded⟩] }
              (Sample.secondVisit gap)).any (fun later =>
                later.world.documents.map Document.fetchedAt = [0] && Sample.accepted later)) := by
  simp only [Sample.visits, Service.arrive_eq Sample.program_jwtRequest]
  rw [show Sample.firstVisit gap = [] ++ .arrive Sample.jwtRequest :: (Sample.firstVisit gap).tail from rfl,
    Service.play_arrival Sample.program_jwtRequest]
  rfl

/-- Both visits compute: a second request five minutes after the fetch, with the keys current, and
one a hundred seconds after the key set has lapsed.
-/
theorem visits_computed
    : (Sample.visits Sample.keysCurrent 300000 && Sample.visits (fun _ _ => true) 700000) = true := by
  rw [visits_eq, visits_eq]
  decide +kernel

/-- A request five minutes after the fetch is accepted with the key of a document that young. -/
theorem acceptedKey_fetched_played
    : ∃ (later : Sample.Verifications) (user : AuthUser),
        later.Answered 1 Sample.jwtRequest (some user)
        ∧ KeyFetchedAfter Sample.verifyingRuntime Sample.neonOptions Sample.jwtRequest
          (later.history 1) later.world.documents (300000 - 600 * sec) := by
  obtain ⟨pool, later, user, past, called, run, answered, now, _⟩ :=
    visits_run (fun _ _ => keysCurrent_sound) (Bool.and_eq_true_iff.mp visits_computed).1
  have fetched := acceptedKey_fetched (by norm_num [Sample.neonOptions]) past called run answered
  rw [now] at fetched
  exact ⟨later, user, answered, fetched⟩

/-- A request a hundred seconds after the document has lapsed is accepted with a key of it. -/
theorem acceptedKey_stale
    : ¬ ∀ pool later index request user,
        (provider Sample.verifyingRuntime Sample.neonOptions).Reachable (.fresh 0) pool →
        pool.threads[index]? = some ⟨request, verify Sample.verifyingRuntime Sample.neonOptions request⟩ →
        (provider Sample.verifyingRuntime Sample.neonOptions).Run pool later →
        later.Answered index request (some user) →
        KeyFetchedAfter Sample.verifyingRuntime Sample.neonOptions request (later.history index)
          later.world.documents (pool.world.now - Sample.neonOptions.jwksCacheTtlSec * sec) := by
  intro claimed
  obtain ⟨pool, later, user, past, called, run, answered, now, documents⟩ :=
    visits_run (fun _ _ _ => trivial) (Bool.and_eq_true_iff.mp visits_computed).2
  obtain ⟨_, _, _, _, _, _, document, installed, after, _⟩ :=
    claimed pool later 1 _ user past.run called run.run answered
  have fetchedAt : document.fetchedAt = 0 := by
    have listed := List.mem_map_of_mem (f := Document.fetchedAt) installed
    rw [documents] at listed
    exact List.mem_singleton.mp listed
  rw [now, fetchedAt] at after
  norm_num [Sample.neonOptions, sec] at after

end WorkersAuth.Neon

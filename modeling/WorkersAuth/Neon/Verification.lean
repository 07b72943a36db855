import WorkersAuth.Neon.Custody
import WorkersAuth.Atomic.Rely

/-! What a verification knows of its key when it accepts.
Every turn is taken under the contract of custody, so what a verification has been given along
the way still holds at its end: the document its keys are from, and the key that was imported.
-/

namespace WorkersAuth.Neon

open Atomic

variable {Key : Type} {runtime : Runtime Key} {options : NeonAuthOptions}
  {asked : Option Json → Prop} {recent : Millis → Prop} {since at' : Millis}
  {meets : Isolate Key → Call (Turn Key) Turn.Ret → Prop} {extra : Isolate Key → Prop}
  {isolate before world next : Isolate Key} {history : List (Call (Turn Key) Turn.Ret)}
  {name : String} {key : Key} {α : Type}

/-- Turns that meet a condition keep custody, and something else besides. -/
def custodyContract (runtime : Runtime Key) (asked : Option Json → Prop)
    (meets : Isolate Key → Call (Turn Key) Turn.Ret → Prop) (extra : Isolate Key → Prop)
    : Contract (Turn Key) Turn.Ret (Isolate Key) where
  meets
  keep isolate := Custody runtime asked isolate ∧ extra isolate
  grows := Precedes
  refl := .refl
  trans _ _ _ := .trans

/-- Where the keys come from that a turn answers with. -/
def sourceOf : Call (Turn Key) Turn.Ret → Option KeySource
  | ⟨.resolveKey _, .keys source⟩ => some source
  | ⟨.kvAnswered _, some source⟩ => some source
  | ⟨.retry, some source⟩ => some source
  | _ => none

/-- The turns from `since` on take only documents and fetches of a time that `recent` allows. -/
structure Recency (options : NeonAuthOptions)
    (meets : Isolate Key → Call (Turn Key) Turn.Ret → Prop) (since : Millis)
    (recent : Millis → Prop)
    : Prop where
  mono : ∀ first second, first ≤ second → recent first → recent second
  start : ∀ time, since ≤ time → recent time
  fresh : ∀ at' fetchedAt, since ≤ at' → at' - fetchedAt < options.jwksCacheTtlSec * sec →
    recent fetchedAt
  join : ∀ isolate call flight (started : Flight), since ≤ isolate.now → meets isolate call →
    sourceOf call = some (.join flight) → isolate.flights[flight]? = some started →
    recent started.startedAt

/-- What is known of a source of keys. -/
def Supplies (recent : Millis → Prop) (isolate : Isolate Key) : KeySource → Prop
  | .ready keys => ∃ document ∈ isolate.documents, document.keys = keys ∧ recent document.fetchedAt
  | .join flight =>
      ∃ started : Flight, isolate.flights[flight]? = some started ∧ recent started.startedAt
  | .start flight =>
      ∃ started : Flight, isolate.flights[flight]? = some started ∧ recent started.startedAt
        ∧ started.startedAt ≤ isolate.now

/-- The keys are those of a document. -/
def Brings (recent : Millis → Prop) (_ : List (Call (Turn Key) Turn.Ret))
    (answer : Option (List Json)) (isolate : Isolate Key)
    : Prop :=
  ∀ keys, answer = some keys →
    ∃ document ∈ isolate.documents, document.keys = keys ∧ recent document.fetchedAt

/-- The calls of a verification show the key it goes on with, and under which name. -/
def Used (name : String) (key : Key) (history : List (Call (Turn Key) Turn.Ret)) : Prop :=
  (⟨.resolveKey name, .cached key⟩ : Call (Turn Key) Turn.Ret) ∈ history
    ∨ (⟨.remember name key, ()⟩ : Call (Turn Key) Turn.Ret) ∈ history

/-- The key was remembered when the verification asked for it. -/
def Recalled (runtime : Runtime Key) (asked : Option Json → Prop)
    (meets : Isolate Key → Call (Turn Key) Turn.Ret → Prop) (extra : Isolate Key → Prop)
    (since : Millis) (name : String) (key : Key) (world : Isolate Key)
    : Prop :=
  ∃ before, Precedes before world ∧ Custody runtime asked before ∧ extra before
    ∧ since ≤ before.now ∧ meets before ⟨.resolveKey name, .cached key⟩
    ∧ before.entry.imported name = some key

-----------------------------------------------------------------------------------------
-- Turns that answer with a source of keys
-----------------------------------------------------------------------------------------

/-- Time that passes takes nothing away from a source. -/
theorem Supplies.wait {source : KeySource} (supplies : Supplies recent isolate source)
    {now : Millis} (forward : isolate.now ≤ now)
    : Supplies recent (isolate.wait now) source := by
  cases source with
  | ready keys => exact supplies
  | join flight => exact supplies
  | start flight =>
      obtain ⟨started, there, since, past⟩ := supplies
      exact ⟨started, there, since, past.trans forward⟩

/-- A fetch that is joined or started, waited for until a time after its start. -/
theorem fetchJwks_supplies (custody : Custody runtime asked isolate) {later after : Millis}
    (onward : later ≤ after) (started : recent later)
    (joins : ∀ flight (running : Flight), (isolate.fetchJwks later).1 = .join flight →
      isolate.flights[flight]? = some running → recent running.startedAt)
    : Supplies recent ((isolate.fetchJwks later).2.wait after) (isolate.fetchJwks later).1 := by
  rcases fetchJwks_cases isolate later with ⟨flight, inflight, joined⟩ | ⟨source, flights, _⟩
  · have inside := custody.inflight flight inflight
    rw [joined] at joins ⊢
    have there := List.getElem?_eq_getElem inside
    exact ⟨_, there, joins flight _ rfl there⟩
  · rw [source]
    refine ⟨{ startedAt := later, settled := none }, ?_, started, onward⟩
    change (isolate.fetchJwks later).2.flights[isolate.flights.length]? = _
    rw [flights]
    simp

/-- The source that `resolveKey` starts with. -/
theorem resolveKey_supplies {source : KeySource} {cacheKey : String}
    (recency : Recency options meets since recent) (custody : Custody runtime asked before)
    (now : since ≤ before.now)
    (met : meets before ⟨.resolveKey cacheKey, .keys source⟩)
    (executes : Turn.exec runtime options (.resolveKey cacheKey) before (.keys source) next)
    : Supplies recent next source := by
  obtain ⟨input, middle, forward, onward, computed, rfl⟩ := executes
  simp only [Turn.compute, Isolate.resolveKey, Isolate.loadKeys, Option.some.injEq] at computed
  split at computed
  · cases computed
  · split at computed
    · next fresh =>
        cases computed
        exact ⟨_, custody.entry fresh.1, rfl, recency.fresh _ _ now fresh.2⟩
    · split at computed
      · cases computed
      · cases computed
        refine fetchJwks_supplies custody onward (recency.start _ (now.trans forward)) ?_
        intro flight running joined there
        rw [joined] at met
        exact recency.join _ _ flight running now met rfl there

/-- The source after KV has been asked. -/
theorem kvAnswered_supplies {source : KeySource} (recency : Recency options meets since recent)
    (custody : Custody runtime asked before) (asking : since ≤ at') (now : since ≤ before.now)
    (met : meets before ⟨.kvAnswered at', some source⟩)
    (executes : Turn.exec runtime options (.kvAnswered at') before (some source) next)
    : Supplies recent next source := by
  obtain ⟨input, middle, forward, onward, computed, rfl⟩ := executes
  simp only [Turn.compute, Isolate.kvAnswered] at computed
  have fetched (same : source = (before.fetchJwks input.later).1)
      : Supplies recent ((before.fetchJwks input.later).2.wait input.after) source := by
    subst same
    refine fetchJwks_supplies custody onward (recency.start _ (now.trans forward)) ?_
    intro flight running joined there
    rw [joined] at met
    exact recency.join _ _ flight running now met rfl there
  split at computed
  · cases computed
  · split at computed
    · split at computed
      · next document _ valid =>
          cases computed
          exact ⟨document, List.mem_append_right _ (List.mem_singleton_self _), rfl,
            recency.fresh _ _ asking valid⟩
      · cases computed
        exact fetched rfl
    · cases computed
      exact fetched rfl

/-- The source of a second try. -/
theorem retry_supplies {source : KeySource} (recency : Recency options meets since recent)
    (custody : Custody runtime asked before) (now : since ≤ before.now)
    (met : meets before ⟨.retry, some source⟩)
    (executes : Turn.exec runtime options .retry before (some source) next)
    : Supplies recent next source := by
  obtain ⟨input, middle, forward, onward, computed, rfl⟩ := executes
  simp only [Turn.compute, Isolate.retry, Option.some.injEq] at computed
  split at computed
  · cases computed
  · cases computed
    refine fetchJwks_supplies custody onward (recency.start _ (now.trans forward)) ?_
    intro flight running joined there
    rw [joined] at met
    exact recency.join _ _ flight running now met rfl there

-----------------------------------------------------------------------------------------
-- The parts of a verification
-----------------------------------------------------------------------------------------

/-- Turns that meet the condition keep what is kept besides custody. -/
def Maintains (runtime : Runtime Key) (options : NeonAuthOptions)
    (meets : Isolate Key → Call (Turn Key) Turn.Ret → Prop) (extra : Isolate Key → Prop)
    : Prop :=
  ∀ taken reply before after, extra before → meets before ⟨taken, reply⟩ →
    Turn.exec runtime options taken before reply after → extra after

/-- A part of a verification that does its part and ends so. -/
abbrev Secures (runtime : Runtime Key) (options : NeonAuthOptions) (asked : Option Json → Prop)
    (meets : Isolate Key → Call (Turn Key) Turn.Ret → Prop) (extra : Isolate Key → Prop)
    (post : List (Call (Turn Key) Turn.Ret) → α → Isolate Key → Prop)
    (history : List (Call (Turn Key) Turn.Ret)) (program : Verification Key α)
    (world : Isolate Key)
    : Prop :=
  program.Honours (Turn.exec runtime options) (custodyContract runtime asked meets extra) post
    history world

variable {post : List (Call (Turn Key) Turn.Ret) → α → Isolate Key → Prop}

/-- A turn, then the rest, which may rely on what the turn has shown. -/
theorem secures_turn {taken : Turn Key} {rest : taken.Ret → Verification Key α}
    (maintains : Maintains runtime options meets extra)
    (backed : ∀ before, Precedes world before → Backed runtime asked before taken)
    (later : ∀ before reply after, Precedes world before → Custody runtime asked before →
      extra before → meets before ⟨taken, reply⟩ →
      taken.exec runtime options before reply after → Precedes before after →
      Secures runtime options asked meets extra post (history ++ [⟨taken, reply⟩]) (rest reply) after)
    : Secures runtime options asked meets extra post history (turn taken >>= rest) world := by
  refine .perform (fun before reply after grown kept met executes => ?_)
  obtain ⟨custody, holds⟩ := kept
  obtain ⟨keeps, precedes⟩ := custody.exec (backed before grown) executes
  exact ⟨⟨keeps, maintains _ _ _ _ holds met executes⟩, precedes,
    later before reply after grown custody holds met executes precedes⟩

/-- A fetch that was started brings the keys of a document received since. -/
theorem runFetch_secures {flight : Nat} (recency : Recency options meets since recent)
    (maintains : Maintains runtime options meets extra)
    (supplies : Supplies recent world (.start flight))
    : Secures runtime options asked meets extra (Brings recent) history (runFetch options flight)
        world := by
  obtain ⟨started, there, newer, past⟩ := supplies
  refine secures_turn maintains (fun _ _ => trivial) ?_
  intro before reply after grown _ _ _ executes moves
  obtain ⟨running, found, same⟩ := (grown.trans moves).flights flight started there
  cases reply with
  | none =>
      refine secures_turn maintains (fun _ _ => trivial) (fun _ _ _ _ _ _ _ _ _ => ?_)
      refine .answer (fun _ _ _ keys found => ?_)
      contradiction
  | some document =>
      -- The document is received after the start of the fetch that it settles.
      have received : document ∈ after.documents ∧ document.fetchedAt = before.now := by
        obtain ⟨input, middle, _, _, computed, rfl⟩ := executes
        simp only [Turn.compute, Isolate.received, Option.some.injEq] at computed
        split at computed
        · cases computed
        · cases computed
          exact ⟨List.mem_append_right _ (List.mem_singleton_self _), rfl⟩
      obtain ⟨installed, at_⟩ := received
      have since_start : started.startedAt ≤ document.fetchedAt := at_ ▸ past.trans grown.now
      have settles (stored : Bool) (history : List (Call (Turn Key) Turn.Ret)) (world : Isolate Key)
          (moved : Precedes after world)
          : Secures runtime options asked meets extra (Brings recent) history (do
              turn (.settle flight (if stored then some document.keys else none))
              return if stored then some document.keys else none) world := by
        refine secures_turn maintains (fun settling forward => ?_) (fun _ _ _ forward _ _ _ _ ends => ?_)
        · cases stored with
          | false => trivial
          | true =>
              refine ⟨document, (moved.trans forward).documents installed, rfl, ?_⟩
              intro one seen
              obtain ⟨known, is, was⟩ := (moved.trans forward).flights flight running found
              cases is.symm.trans seen
              exact (was.trans same).le.trans since_start
        · refine .answer (fun last onward _ keys result => ?_)
          cases stored with
          | false => contradiction
          | true =>
              cases result
              exact ⟨document, (((moved.trans forward).trans ends).trans onward).documents installed,
                rfl, recency.mono _ _ since_start newer⟩
      by_cases cache : options.cache
      · simp only [cache, if_true]
        exact secures_turn maintains (fun _ _ => trivial)
          (fun _ stored _ forward _ _ _ _ ends => settles stored _ _ (forward.trans ends))
      · simp only [cache]
        exact settles true _ _ (.refl after)

/-- The keys of a source are those of a document. -/
theorem keysFrom_secures {source : KeySource} (recency : Recency options meets since recent)
    (maintains : Maintains runtime options meets extra) (supplies : Supplies recent world source)
    : Secures runtime options asked meets extra (Brings recent) history (keysFrom options source)
        world := by
  cases source with
  | ready keys =>
      obtain ⟨document, installed, same, newer⟩ := supplies
      refine .answer (fun later grown _ answer found => ?_)
      cases found
      exact ⟨document, grown.documents installed, same, newer⟩
  | join flight =>
      obtain ⟨started, there, newer⟩ := supplies
      refine .perform_last (fun before reply after grown kept met executes => ?_)
      obtain ⟨custody, holds⟩ := kept
      have backed : Backed runtime asked before (.joined flight) := trivial
      obtain ⟨keeps, precedes⟩ := custody.exec backed executes
      refine ⟨⟨keeps, maintains _ _ _ _ holds met executes⟩, precedes, ?_⟩
      intro last onward _ keys found
      subst found
      obtain ⟨running, is, was⟩ := grown.flights flight started there
      obtain ⟨input, middle, _, _, computed, rfl⟩ := executes
      simp only [Turn.compute, is, Option.bind_some, Option.map_eq_some_iff, Prod.mk.injEq] at computed
      obtain ⟨_, settled, rfl, _⟩ := computed
      obtain ⟨document, installed, same, since_start⟩ :=
        custody.settled running (List.mem_of_getElem? is) keys settled
      exact ⟨document, (precedes.trans onward).documents installed, same,
        recency.mono _ _ (was ▸ since_start) newer⟩
  | start flight => exact runFetch_secures recency maintains supplies

/-- A key that `resolveKey` has picked, under the name of this `kid` and algorithm. -/
def Picks (runtime : Runtime Key) (asked : Option Json → Prop) (recent : Millis → Prop)
    (name : String) (history : List (Call (Turn Key) Turn.Ret)) (answer : Option Key)
    (world : Isolate Key)
    : Prop :=
  ∀ key, answer = some key → Used name key history ∧ Imported runtime asked recent world name key

/-- The key of a picked JWK is remembered. -/
theorem importPicked_secures {kid : Option Json} {alg : JwsAlgorithm} {jwk : Json}
    {document : Document} (maintains : Maintains runtime options meets extra) (wanted : asked kid)
    (installed : document ∈ world.documents) (newer : recent document.fetchedAt)
    (picked : pick kid alg document.keys = some (some jwk))
    : Secures runtime options asked meets extra
        (Picks runtime asked recent (importedName runtime kid alg)) history
        (importPicked runtime (importedName runtime kid alg) jwk alg) world := by
  unfold importPicked
  split
  · refine .answer (fun _ _ _ key found => ?_)
    contradiction
  · next key imports =>
      have imported (later : Isolate Key) (grown : Precedes world later)
          : Imported runtime asked recent later (importedName runtime kid alg) key :=
        ⟨kid, alg, document, jwk, wanted, rfl, grown.documents installed, newer, picked, imports⟩
      refine secures_turn maintains
        (fun before grown => (imported before grown).mono (List.Subset.refl _) (fun _ _ => trivial))
        (fun _ _ _ grown _ _ _ _ moves => ?_)
      refine .answer (fun later onward _ result found => ?_)
      cases found
      exact ⟨.inr (List.mem_append_right _ (List.mem_singleton_self _)),
        imported later ((grown.trans moves).trans onward)⟩

/-- `resolveKey` picks from what its source brings, or from what a second try does. -/
theorem pickKey_secures {kid : Option Json} {alg : JwsAlgorithm} {source : KeySource}
    (recency : Recency options meets since recent) (maintains : Maintains runtime options meets extra)
    (wanted : asked kid) (now : since ≤ world.now) (supplies : Supplies recent world source)
    : Secures runtime options asked meets extra
        (Picks runtime asked recent (importedName runtime kid alg)) history
        (pickKey runtime options kid alg source) world := by
  have fails (history : List (Call (Turn Key) Turn.Ret)) (world : Isolate Key)
      : Secures runtime options asked meets extra
          (Picks runtime asked recent (importedName runtime kid alg)) history
          (return none) world :=
    .answer (fun _ _ _ key found => by contradiction)
  refine ((keysFrom_secures recency maintains supplies).grown (.refl world)).bind ?_
  rintro history answer later _ ⟨grown, brings⟩
  cases answer with
  | none => exact fails history later
  | some keys =>
      obtain ⟨document, installed, rfl, newer⟩ := brings keys rfl
      simp only
      cases picked : pick kid alg document.keys with
      | none => exact fails history later
      | some choice =>
          cases choice with
          | some jwk => exact importPicked_secures maintains wanted installed newer picked
          | none =>
              refine secures_turn maintains (fun _ _ => trivial) ?_
              intro before reply after onward custody _ met executes _
              cases reply with
              | none => exact fails _ after
              | some source =>
                  have supplied := retry_supplies recency custody
                    ((now.trans grown.now).trans onward.now) met executes
                  refine (keysFrom_secures recency maintains supplied).bind ?_
                  intro history answer last _ brings
                  cases answer with
                  | none => exact fails history last
                  | some keys =>
                      obtain ⟨document, installed, rfl, newer⟩ := brings keys rfl
                      simp only
                      split
                      · next jwk picked =>
                          exact importPicked_secures maintains wanted installed newer picked
                      · exact fails history last

/-- A key that `resolveKey` has found: one it picks, or one that was remembered. -/
def Finds (runtime : Runtime Key) (asked : Option Json → Prop)
    (meets : Isolate Key → Call (Turn Key) Turn.Ret → Prop) (extra : Isolate Key → Prop)
    (since : Millis) (recent : Millis → Prop) (name : String)
    (history : List (Call (Turn Key) Turn.Ret)) (answer : Option Key) (world : Isolate Key)
    : Prop :=
  ∀ key, answer = some key → Used name key history
    ∧ (Imported runtime asked recent world name key
      ∨ Recalled runtime asked meets extra since name key world)

/-- `resolveKey` ends with a key that was remembered or one that it picks. -/
theorem resolveKey_secures {kid : Option Json} {alg : JwsAlgorithm}
    (recency : Recency options meets since recent) (maintains : Maintains runtime options meets extra)
    (wanted : asked kid) (now : since ≤ world.now)
    : Secures runtime options asked meets extra
        (Finds runtime asked meets extra since recent (importedName runtime kid alg))
        history (resolveKey runtime options kid alg) world := by
  have picks {source : KeySource} {history : List (Call (Turn Key) Turn.Ret)} {later : Isolate Key}
      (now : since ≤ later.now) (supplies : Supplies recent later source)
      : Secures runtime options asked meets extra
          (Finds runtime asked meets extra since recent (importedName runtime kid alg))
          history (pickKey runtime options kid alg source) later :=
    (pickKey_secures recency maintains wanted now supplies).mono
      (fun _ _ _ picked key found => ⟨(picked key found).1, .inl (picked key found).2⟩)
  refine secures_turn maintains (fun _ _ => trivial) ?_
  intro before reply after grown custody holds met executes moves
  have begun : since ≤ before.now := now.trans grown.now
  cases reply with
  | cached key =>
      refine .answer (fun later onward _ result found => ?_)
      cases found
      have remembered : before.entry.imported (importedName runtime kid alg) = some key := by
        obtain ⟨input, middle, _, _, computed, _⟩ := executes
        simp only [Turn.compute, Isolate.resolveKey, Isolate.loadKeys, Option.some.injEq] at computed
        split at computed
        · next found =>
            cases computed
            exact found
        · split at computed
          · cases computed
          · split at computed <;> cases computed
      exact ⟨.inl (List.mem_append_right _ (List.mem_singleton_self _)),
        .inr ⟨before, moves.trans onward, custody, holds, begun, met, remembered⟩⟩
  | keys source =>
      exact picks (begun.trans moves.now) (resolveKey_supplies recency custody begun met executes)
  | askKv at' =>
      have asking : at' = before.now := by
        obtain ⟨input, middle, _, _, computed, _⟩ := executes
        simp only [Turn.compute, Isolate.resolveKey, Isolate.loadKeys, Option.some.injEq] at computed
        split at computed
        · cases computed
        · split at computed
          · cases computed
          · split at computed <;> cases computed
            rfl
      refine secures_turn maintains (fun _ _ => trivial) ?_
      intro answered reply last onward custody _ met executes ends
      cases reply with
      | none => exact .answer (fun _ _ _ key found => by contradiction)
      | some source =>
          have later : since ≤ answered.now := (begun.trans moves.now).trans onward.now
          exact picks (later.trans ends.now)
            (kvAnswered_supplies recency custody (asking ▸ begun) later met executes)

-----------------------------------------------------------------------------------------
-- A verification
-----------------------------------------------------------------------------------------

/-- The token of a request, with the key that its signature verifies under. -/
structure Signed (runtime : Runtime Key) (options : NeonAuthOptions) (request : HttpRequest)
    (token : String) (decoded : DecodedJwt) (alg : JwsAlgorithm) (key : Key)
    : Prop where
  taken : options.getToken request = some token
  short : jsLength token ≤ maxTokenBytes
  decodes : decodeJwt runtime token = some decoded
  allowed : allowedAlgorithm options decoded.header = some alg
  verifies : runtime.verifySignature alg.spec.verifyAlgorithm key decoded.signature
    decoded.signedData = true

/-- A user is returned for a signed token, with claims accepted at a reading of the clock, and the
key is one that `resolveKey` has found.
-/
def Accepts (runtime : Runtime Key) (options : NeonAuthOptions) (asked : Option Json → Prop)
    (meets : Isolate Key → Call (Turn Key) Turn.Ret → Prop) (extra : Isolate Key → Prop)
    (since : Millis) (recent : Millis → Prop) (request : HttpRequest)
    (history : List (Call (Turn Key) Turn.Ret)) (answer : Option AuthUser) (world : Isolate Key)
    : Prop :=
  ∀ user, answer = some user → ∃ token decoded alg key at',
    Signed runtime options request token decoded alg key
    ∧ Finds runtime asked meets extra since recent
        (importedName runtime (decoded.header.get "kid") alg) history (some key) world
    ∧ (⟨.clock, at'⟩ : Call (Turn Key) Turn.Ret) ∈ history
    ∧ acceptPayload options decoded.payload at' = some user

/-- What was found stays found. -/
theorem Finds.mono {answer : Option Key} {later : Isolate Key}
    {longer : List (Call (Turn Key) Turn.Ret)}
    (finds : Finds runtime asked meets extra since recent name history answer world)
    (grown : Precedes world later) (recorded : history ⊆ longer)
    : Finds runtime asked meets extra since recent name longer answer later := by
  intro key found
  obtain ⟨used, known⟩ := finds key found
  refine ⟨used.imp (fun called => recorded called) (fun called => recorded called), ?_⟩
  refine known.imp (fun imported => imported.mono grown.documents (fun _ newer => newer)) ?_
  rintro ⟨before, precedes, rest⟩
  exact ⟨before, precedes.trans grown, rest⟩

/-- A verification does its part, and accepts as described. -/
theorem verify_secures {request : HttpRequest} (recency : Recency options meets since recent)
    (maintains : Maintains runtime options meets extra)
    (wanted : ∀ token decoded, options.getToken request = some token →
      decodeJwt runtime token = some decoded → asked (decoded.header.get "kid"))
    (now : since ≤ world.now)
    : Secures runtime options asked meets extra
        (Accepts runtime options asked meets extra since recent request) history
        (verify runtime options request) world := by
  have refuses (history : List (Call (Turn Key) Turn.Ret)) (world : Isolate Key)
      : Secures runtime options asked meets extra
          (Accepts runtime options asked meets extra since recent request) history
          (return none) world :=
    .answer (fun _ _ _ user found => by contradiction)
  unfold verify
  split
  · exact refuses history world
  · next token taken =>
      split
      · exact refuses history world
      · next fits =>
          split
          · exact refuses history world
          · next decoded decodes =>
              split
              · exact refuses history world
              · next alg allowed =>
                  refine (resolveKey_secures recency maintains (wanted token decoded taken decodes)
                    now).bind ?_
                  intro history answer world _ finds
                  cases answer with
                  | none => exact refuses history world
                  | some key =>
                      simp only
                      split
                      · next verifies =>
                          refine secures_turn maintains (fun _ _ => trivial) ?_
                          intro before at' after grown _ _ _ _ moves
                          refine .answer (fun later onward _ user found => ?_)
                          have short : jsLength token ≤ maxTokenBytes := by
                            rw [not_or, not_lt] at fits
                            exact fits.2
                          exact ⟨token, decoded, alg, key, at',
                            ⟨taken, short, decodes, allowed, verifies⟩,
                            finds.mono ((grown.trans moves).trans onward) (List.subset_append_left _ _),
                            List.mem_append_right _ (List.mem_singleton_self _), found⟩
                      · exact refuses history world

end WorkersAuth.Neon

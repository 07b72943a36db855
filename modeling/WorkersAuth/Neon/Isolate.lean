import WorkersAuth.Neon.Jwks
import WorkersAuth.Atomic.Trace

/-! `neonAuth.verify` in one isolate, over the cache entry of its JWKS URL.
The code between two `await`s runs as one turn, so each operation here is one turn on the
entry; any number of verifications interleave at their turns. Time passes before a turn, and
between the clock readings of one.
-/

namespace WorkersAuth.Neon

open Atomic

/-- A key set and when it was fetched. -/
structure Document where
  keys : List Json
  fetchedAt : Millis

structure CacheEntry (Key : Type) where
  keys : List Json
  fetchedAt : Millis
  lastAttemptAt : Millis
  imported : String → Option Key
  inflight : Option Nat

/-- A network fetch and its promise: rejected, or resolved with the keys, once settled. -/
structure Flight where
  startedAt : Millis
  settled : Option (Option (List Json))

/-- The clock, the entry, the fetches made so far and the documents installed so far. -/
structure Isolate (Key : Type) where
  now : Millis
  entry : CacheEntry Key
  flights : List Flight
  documents : List Document

/-- Where the keys of a verification are to come from. -/
inductive KeySource where
  | ready (keys : List Json)
  | join (flight : Nat)
  | start (flight : Nat)

/-- How the first turn of `resolveKey` ends. -/
inductive Resolution (Key : Type) where
  | cached (key : Key)
  | askKv (at' : Millis)
  | keys (source : KeySource)

variable {Key : Type}

namespace Isolate

/-- `entryFor` of a URL that has not been seen. -/
def fresh (now : Millis) : Isolate Key where
  now
  entry := { keys := [], fetchedAt := 0, lastAttemptAt := 0, imported := fun _ => none, inflight := none }
  flights := []
  documents := []

/-- The first turn of `fetchJwks`: the fetch in flight is joined, or one is started. -/
def fetchJwks (isolate : Isolate Key) (at' : Millis) : KeySource × Isolate Key :=
  match isolate.entry.inflight with
  | some flight => (.join flight, isolate)
  | none =>
      let flight := isolate.flights.length
      (.start flight,
        { isolate with
          entry := { isolate.entry with lastAttemptAt := at', inflight := some flight }
          flights := isolate.flights ++ [{ startedAt := at', settled := none }] })

/-- A document takes the place of the one before, and of the keys imported from that. -/
def install (isolate : Isolate Key) (document : Document) : Isolate Key :=
  { isolate with
    entry := { isolate.entry with
      keys := document.keys, fetchedAt := document.fetchedAt, imported := fun _ => none }
    documents := isolate.documents ++ [document] }

/-- Whether the cached key set still serves. -/
def Fresh (isolate : Isolate Key) (options : NeonAuthOptions) (at' : Millis) : Prop :=
  isolate.entry.keys ≠ [] ∧ at' - isolate.entry.fetchedAt < options.jwksCacheTtlSec * sec

instance (isolate : Isolate Key) (options : NeonAuthOptions) (at' : Millis)
    : Decidable (isolate.Fresh options at') :=
  decidable_of_iff (isolate.entry.keys.isEmpty = false
    ∧ at' - isolate.entry.fetchedAt < options.jwksCacheTtlSec * sec)
    (by rw [Fresh, List.isEmpty_eq_false_iff])

/-- The first turn of `loadKeys`. -/
def loadKeys (isolate : Isolate Key) (options : NeonAuthOptions) (at' later : Millis)
    : Resolution Key × Isolate Key :=
  if isolate.Fresh options at' then (.keys (.ready isolate.entry.keys), isolate)
  else if options.cache then (.askKv at', isolate)
  else (.keys (isolate.fetchJwks later).1, (isolate.fetchJwks later).2)

/-- The first turn of `resolveKey`. -/
def resolveKey (isolate : Isolate Key) (options : NeonAuthOptions) (cacheKey : String)
    (at' later : Millis)
    : Resolution Key × Isolate Key :=
  match isolate.entry.imported cacheKey with
  | some key => (.cached key, isolate)
  | none => isolate.loadKeys options at' later

/-- The turn of `loadKeys` after KV has answered; its clock was read in the turn before. -/
def kvAnswered (isolate : Isolate Key) (options : NeonAuthOptions) (at' later : Millis)
    (cached : Option Document)
    : KeySource × Isolate Key :=
  match cached with
  | some document =>
      if at' - document.fetchedAt < options.jwksCacheTtlSec * sec then
        (.ready document.keys, isolate.install document)
      else isolate.fetchJwks later
  | none => isolate.fetchJwks later

/-- The turn of `fetchJwks` in which the endpoint's answer, or its failure, is known. -/
def received (isolate : Isolate Key) (runtime : Runtime Key) (options : NeonAuthOptions)
    (at' : Millis) (res : Option JwksResponse)
    : Option Document × Isolate Key :=
  match readJwks runtime options res with
  | none => (none, isolate)
  | some keys => (some ⟨keys, at'⟩, isolate.install ⟨keys, at'⟩)

/-- The promise of a fetch settles, and `finally` takes it out of the entry. -/
def settle (isolate : Isolate Key) (flight : Nat) (result : Option (List Json)) : Isolate Key :=
  { isolate with
    entry := { isolate.entry with inflight := none }
    flights := isolate.flights.modify flight ({ · with settled := some result }) }

/-- The turn of `resolveKey` after a key set without the key: one refetch, rate limited. -/
def retry (isolate : Isolate Key) (options : NeonAuthOptions) (at' later : Millis)
    : Option KeySource × Isolate Key :=
  if at' - isolate.entry.lastAttemptAt < options.minRefetchIntervalSec * sec then (none, isolate)
  else (some (isolate.fetchJwks later).1, (isolate.fetchJwks later).2)

/-- An imported key is remembered. -/
def remember (isolate : Isolate Key) (cacheKey : String) (key : Key) : Isolate Key :=
  { isolate with
    entry := { isolate.entry with
      imported := fun name => if name = cacheKey then some key else isolate.entry.imported name } }

/-- Time has passed. -/
def wait (isolate : Isolate Key) (now : Millis) : Isolate Key :=
  { isolate with now }

end Isolate

-----------------------------------------------------------------------------------------
-- Turns
-----------------------------------------------------------------------------------------

/-- The turns of a verification. -/
inductive Turn (Key : Type) where
  | resolveKey (cacheKey : String)
  | kvAnswered (at' : Millis)
  | received
  | kvPut (document : Document)
  | settle (flight : Nat) (result : Option (List Json))
  | joined (flight : Nat)
  | retry
  | remember (cacheKey : String) (key : Key)
  | clock

/-- What each turn leads to: KV may fail (nothing for a read, false for a write), and a retry
may not be due.
-/
abbrev Turn.Ret : Turn Key → Type
  | .resolveKey _ => Resolution Key
  | .kvAnswered _ => Option KeySource
  | .received => Option Document
  | .kvPut _ => Bool
  | .settle _ _ => Unit
  | .joined _ => Option (List Json)
  | .retry => Option KeySource
  | .remember _ _ => Unit
  | .clock => Millis

/-- What a turn is given from input: a later clock reading, the time when it is over, and the
answers of KV, of the endpoint and of the write to KV.
-/
structure TurnInput where
  later : Millis
  after : Millis
  kv : Option (Option Document)
  response : Option JwksResponse
  stored : Bool

/-- A turn given all that; a promise that has not settled leads nowhere yet. -/
def Turn.compute (runtime : Runtime Key) (options : NeonAuthOptions) (input : TurnInput)
    : (taken : Turn Key) → Isolate Key → Option (taken.Ret × Isolate Key)
  | .resolveKey cacheKey, isolate =>
      some (isolate.resolveKey options cacheKey isolate.now input.later)
  | .kvAnswered at', isolate =>
      match input.kv with
      | none => some (none, isolate)
      | some cached =>
          let (source, next) := isolate.kvAnswered options at' input.later cached
          some (some source, next)
  | .received, isolate => some (isolate.received runtime options isolate.now input.response)
  | .kvPut _, isolate => some (input.stored, isolate)
  | .settle flight result, isolate => some ((), isolate.settle flight result)
  | .joined flight, isolate =>
      ((isolate.flights[flight]?).bind Flight.settled).map (fun result => (result, isolate))
  | .retry, isolate => some (isolate.retry options isolate.now input.later)
  | .remember cacheKey key, isolate => some ((), isolate.remember cacheKey key)
  | .clock, isolate => some (isolate.now, isolate)

/-- A turn, whatever it is given, and the time that passes until the next one. -/
def Turn.exec (runtime : Runtime Key) (options : NeonAuthOptions)
    : Semantics (Turn Key) Turn.Ret (Isolate Key) :=
  fun taken isolate reply next =>
    ∃ input middle, isolate.now ≤ input.later ∧ input.later ≤ input.after
      ∧ taken.compute runtime options input isolate = some (reply, middle)
      ∧ next = middle.wait input.after

-----------------------------------------------------------------------------------------
-- The provider
-----------------------------------------------------------------------------------------

abbrev Verification (Key α : Type) := Program (Turn Key) Turn.Ret α

/-- One turn of a verification. -/
abbrev turn (taken : Turn Key) : Verification Key taken.Ret :=
  Program.perform taken

/-- The rest of a fetch that was started: nothing where the promise is rejected. -/
def runFetch (options : NeonAuthOptions) (flight : Nat) : Verification Key (Option (List Json)) := do
  match ← turn .received with
  | none =>
      turn (.settle flight none)
      return none
  | some document =>
      let stored ← if options.cache then turn (.kvPut document) else pure true
      let result := if stored then some document.keys else none
      turn (.settle flight result)
      return result

/-- The keys of a source, once they are there. -/
def keysFrom (options : NeonAuthOptions) : KeySource → Verification Key (Option (List Json))
  | .ready keys => return some keys
  | .join flight => turn (.joined flight)
  | .start flight => runFetch options flight

/-- The end of `resolveKey`. -/
def importPicked (runtime : Runtime Key) (cacheKey : String) (jwk : Json) (alg : JwsAlgorithm)
    : Verification Key (Option Key) := do
  match importJwk runtime jwk alg with
  | none => return none
  | some key =>
      turn (.remember cacheKey key)
      return some key

/-- `resolveKey` after its key set is there; nothing also where it throws. -/
def pickKey (runtime : Runtime Key) (options : NeonAuthOptions) (kid : Option Json)
    (alg : JwsAlgorithm) (source : KeySource)
    : Verification Key (Option Key) := do
  match ← keysFrom options source with
  | none => return none
  | some keys =>
      match pick kid alg keys with
      | none => return none
      | some (some jwk) => importPicked runtime (importedName runtime kid alg) jwk alg
      | some none =>
          match ← turn .retry with
          | none => return none
          | some source =>
              match ← keysFrom options source with
              | none => return none
              | some keys =>
                  match pick kid alg keys with
                  | some (some jwk) => importPicked runtime (importedName runtime kid alg) jwk alg
                  | _ => return none

def resolveKey (runtime : Runtime Key) (options : NeonAuthOptions) (kid : Option Json)
    (alg : JwsAlgorithm)
    : Verification Key (Option Key) := do
  match ← turn (.resolveKey (importedName runtime kid alg)) with
  | .cached key => return some key
  | .keys source => pickKey runtime options kid alg source
  | .askKv at' =>
      match ← turn (.kvAnswered at') with
      | none => return none
      | some source => pickKey runtime options kid alg source

/-- `neonAuth(options).verify`. -/
def verify (runtime : Runtime Key) (options : NeonAuthOptions) (req : HttpRequest)
    : Verification Key (Option AuthUser) := do
  match options.getToken req with
  | none => return none
  | some token =>
      if token = "" ∨ maxTokenBytes < jsLength token then return none
      else
        match decodeJwt runtime token with
        | none => return none
        | some decoded =>
            match allowedAlgorithm options decoded.header with
            | none => return none
            | some alg =>
                match ← resolveKey runtime options (decoded.header.get "kid") alg with
                | none => return none
                | some key =>
                    if runtime.verifySignature alg.spec.verifyAlgorithm key decoded.signature
                        decoded.signedData then
                      let at' ← turn .clock
                      return acceptPayload options decoded.payload at'
                    else return none

/-- The verifications of one isolate. -/
def provider (runtime : Runtime Key) (options : NeonAuthOptions)
    : Service (Turn Key) Turn.Ret (Isolate Key) HttpRequest (Option AuthUser) where
  program := verify runtime options
  exec := Turn.exec runtime options

end WorkersAuth.Neon

import WorkersAuth.Neon.Isolate

/-! Where the keys of an isolate come from.
Documents are only added and fetches only settle, and every key that is remembered was picked
from a document, for some `kid` that was asked for, under the name it is remembered by.
-/

namespace WorkersAuth.Neon

open Atomic

variable {Key : Type} {runtime : Runtime Key} {options : NeonAuthOptions}
  {asked : Option Json → Prop} {recent : Millis → Prop}
  {isolate before middle next : Isolate Key} {input : TurnInput} {at' : Millis}
  {document : Document} {name : String} {key : Key}

/-- For some `kid` that was asked for and some algorithm with this name together, the key is
imported from the JWK picked in a document of this isolate, fetched when `recent` allows.
-/
def Imported (runtime : Runtime Key) (asked : Option Json → Prop) (recent : Millis → Prop)
    (isolate : Isolate Key) (name : String) (key : Key)
    : Prop :=
  ∃ kid alg document jwk, asked kid ∧ name = importedName runtime kid alg
    ∧ document ∈ isolate.documents ∧ recent document.fetchedAt
    ∧ pick kid alg document.keys = some (some jwk) ∧ importJwk runtime jwk alg = some key

/-- Time moves on, documents stay, and so does the start of every fetch. -/
structure Precedes (before after : Isolate Key) : Prop where
  now : before.now ≤ after.now
  documents : before.documents ⊆ after.documents
  flights : ∀ (index : Nat) (flight : Flight), before.flights[index]? = some flight →
    ∃ later : Flight, after.flights[index]? = some later ∧ later.startedAt = flight.startedAt

/-- The entry holds the keys of a document, every fetch that succeeded has brought one after it
was started, and every key that is remembered was imported.
-/
structure Custody (runtime : Runtime Key) (asked : Option Json → Prop) (isolate : Isolate Key)
    : Prop where
  entry : isolate.entry.keys ≠ [] →
    (⟨isolate.entry.keys, isolate.entry.fetchedAt⟩ : Document) ∈ isolate.documents
  inflight : ∀ flight, isolate.entry.inflight = some flight → flight < isolate.flights.length
  settled : ∀ flight ∈ isolate.flights, ∀ keys, flight.settled = some (some keys) →
    ∃ document ∈ isolate.documents, document.keys = keys ∧ flight.startedAt ≤ document.fetchedAt
  imported : ∀ name key, isolate.entry.imported name = some key →
    Imported runtime asked (fun _ => True) isolate name key

/-- What a thread has to know for two of its turns: the keys it settles a fetch with are those of
a document received since, and the key it remembers was imported.
-/
def Backed (runtime : Runtime Key) (asked : Option Json → Prop) (isolate : Isolate Key)
    : Turn Key → Prop
  | .settle flight (some keys) =>
      ∃ document ∈ isolate.documents, document.keys = keys
        ∧ ∀ started : Flight, isolate.flights[flight]? = some started →
          started.startedAt ≤ document.fetchedAt
  | .remember name key => Imported runtime asked (fun _ => True) isolate name key
  | _ => True

-----------------------------------------------------------------------------------------
-- Names and picked keys
-----------------------------------------------------------------------------------------

/-- The `kid` of a token as it stands in the name of a key. -/
def kidText (runtime : Runtime Key) : Option Json → String
  | none => ""
  | some .null => ""
  | some (.str text) => text
  | some value => runtime.stringOf value

theorem importedName_eq (runtime : Runtime Key) (kid : Option Json) (alg : JwsAlgorithm)
    : importedName runtime kid alg = kidText runtime kid ++ "|" ++ alg.name := rfl

theorem JwsAlgorithm.name_injective {first second : JwsAlgorithm} (same : first.name = second.name)
    : first = second := by
  cases first <;> cases second <;> first | rfl | exact absurd same (by decide)

theorem JwsAlgorithm.name_length (alg : JwsAlgorithm) : alg.name.toList.length = 5 := by
  cases alg <;> rfl

/-- The names of two keys are equal when their algorithms and the texts of their `kid`s are: the
names of the algorithms are all of one length.
-/
theorem importedName_injective {kid other : Option Json} {alg another : JwsAlgorithm}
    (same : importedName runtime kid alg = importedName runtime other another)
    : kidText runtime kid = kidText runtime other ∧ alg = another := by
  have lists := congrArg String.toList same
  simp only [importedName_eq, String.toList_append, List.append_assoc] at lists
  obtain ⟨texts, names⟩ := List.append_inj' lists (by simp [JwsAlgorithm.name_length])
  have algs := List.append_cancel_left names
  exact ⟨String.toList_injective texts, JwsAlgorithm.name_injective (String.toList_injective algs)⟩

/-- What is found is there and passes the test, by induction on the list. -/
theorem findKey_some {test : Json → Bool} {keys : List Json} {jwk : Json}
    (found : findKey test keys = some (some jwk))
    : jwk ∈ keys ∧ test jwk = true := by
  induction keys with
  | nil => cases found
  | cons head rest ih =>
      rw [findKey.eq_def] at found
      split at found
      · contradiction
      · contradiction
      · next key tail _ same =>
          cases same
          split at found
          · next passes =>
              cases found
              exact ⟨List.mem_cons_self, passes⟩
          · exact (ih found).imp_left (List.mem_cons_of_mem _)

/-- A JWK that is picked is one of the keys. -/
theorem mem_of_pick {kid : Option Json} {alg : JwsAlgorithm} {keys : List Json} {jwk : Json}
    (picked : pick kid alg keys = some (some jwk))
    : jwk ∈ keys := by
  unfold pick at picked
  split at picked
  · split at picked <;> exact (findKey_some picked).1
  · exact (findKey_some picked).1

-----------------------------------------------------------------------------------------
-- What stays
-----------------------------------------------------------------------------------------

theorem Precedes.refl (isolate : Isolate Key) : Precedes isolate isolate where
  now := le_rfl
  documents := List.Subset.refl _
  flights _ flight found := ⟨flight, found, rfl⟩

theorem Precedes.trans (first : Precedes before middle) (second : Precedes middle next)
    : Precedes before next where
  now := first.now.trans second.now
  documents := List.Subset.trans first.documents second.documents
  flights index flight found := by
    obtain ⟨later, there, same⟩ := first.flights index flight found
    obtain ⟨last, still, as⟩ := second.flights index later there
    exact ⟨last, still, as.trans same⟩

/-- A key that was imported stays one that was. -/
theorem Imported.mono {laxer : Millis → Prop}
    (imported : Imported runtime asked recent before name key)
    (documents : before.documents ⊆ next.documents) (implies : ∀ time, recent time → laxer time)
    : Imported runtime asked laxer next name key := by
  obtain ⟨kid, alg, document, jwk, wanted, named, member, since, picked, imports⟩ := imported
  exact ⟨kid, alg, document, jwk, wanted, named, documents member, implies _ since, picked, imports⟩

/-- A fetch is joined, or a new one is started now. -/
theorem fetchJwks_cases (isolate : Isolate Key) (at' : Millis)
    : (∃ flight, isolate.entry.inflight = some flight
        ∧ isolate.fetchJwks at' = (.join flight, isolate))
      ∨ (isolate.fetchJwks at').1 = .start isolate.flights.length
        ∧ (isolate.fetchJwks at').2.flights
          = isolate.flights ++ [{ startedAt := at', settled := none }]
        ∧ (isolate.fetchJwks at').2.entry
          = { isolate.entry with lastAttemptAt := at', inflight := some isolate.flights.length }
        ∧ (isolate.fetchJwks at').2.documents = isolate.documents
        ∧ (isolate.fetchJwks at').2.now = isolate.now := by
  unfold Isolate.fetchJwks
  split
  · next flight found => exact .inl ⟨flight, found, rfl⟩
  · exact .inr ⟨rfl, rfl, rfl, rfl, rfl⟩

/-- Starting or joining a fetch leaves the documents and the keys alone. -/
theorem Custody.fetchJwks (custody : Custody runtime asked isolate) (at' : Millis)
    : Custody runtime asked (isolate.fetchJwks at').2
      ∧ Precedes isolate (isolate.fetchJwks at').2 := by
  rcases fetchJwks_cases isolate at' with ⟨_, _, joins⟩ | ⟨_, flights, entry, documents, now⟩
  · rw [joins]
    exact ⟨custody, .refl isolate⟩
  · refine ⟨?_, ?_⟩
    · constructor
      · rw [entry, documents]
        exact custody.entry
      · rw [entry, flights]
        intro flight found
        cases found
        simp
      · rw [flights, documents]
        intro flight member keys settled
        rcases List.mem_append.mp member with old | new
        · exact custody.settled flight old keys settled
        · rw [List.mem_singleton.mp new] at settled
          contradiction
      · rw [entry]
        intro name key found
        exact (custody.imported name key found).mono (documents ▸ List.Subset.refl _)
          (fun _ always => always)
    · refine ⟨now.ge, documents ▸ List.Subset.refl _, fun index flight found => ?_⟩
      rw [flights]
      exact ⟨flight, (List.getElem?_append_left (List.getElem?_eq_some_iff.mp found).1).trans found, rfl⟩

/-- A document that is installed is there, and no key is remembered. -/
theorem Custody.install (custody : Custody runtime asked isolate) (document : Document)
    : Custody runtime asked (isolate.install document)
      ∧ Precedes isolate (isolate.install document) := by
  have grown : isolate.documents ⊆ (isolate.install document).documents :=
    List.subset_append_left _ _
  refine ⟨?_, le_rfl, grown, fun index flight found => ⟨flight, found, rfl⟩⟩
  constructor
  · intro _
    exact List.mem_append_right _ (List.mem_singleton_self _)
  · exact custody.inflight
  · intro flight member keys settled
    obtain ⟨source, installed, rest⟩ := custody.settled flight member keys settled
    exact ⟨source, grown installed, rest⟩
  · intro name key found
    contradiction

/-- A fetch settles with the keys of a document received since it was started. -/
theorem Custody.settle (custody : Custody runtime asked isolate) {flight : Nat}
    {result : Option (List Json)} (backed : Backed runtime asked isolate (.settle flight result))
    : Custody runtime asked (isolate.settle flight result)
      ∧ Precedes isolate (isolate.settle flight result) := by
  refine ⟨?_, le_rfl, List.Subset.refl _, ?_⟩
  · constructor
    · exact custody.entry
    · intro _ found
      contradiction
    · intro one member keys settled
      obtain ⟨index, found⟩ := List.mem_iff_getElem?.mp member
      simp only [Isolate.settle, List.getElem?_modify] at found
      by_cases here : flight = index
      · subst here
        obtain ⟨started, there, rfl⟩ : ∃ started, isolate.flights[flight]? = some started
            ∧ { started with settled := some result } = one := by simpa using found
        cases settled
        obtain ⟨document, installed, same, since⟩ := backed
        exact ⟨document, installed, same, since started there⟩
      · simp only [here, if_false, Option.map_id_fun', id_eq, Option.map_eq_map] at found
        exact custody.settled one (List.mem_of_getElem? found) keys settled
    · exact custody.imported
  · intro index one found
    by_cases here : flight = index
    · exact ⟨{ one with settled := some result }, by simp [Isolate.settle, here, found], rfl⟩
    · exact ⟨one, by simp [Isolate.settle, here, found], rfl⟩

/-- A key that was imported is remembered. -/
theorem Custody.remember (custody : Custody runtime asked isolate)
    (backed : Backed runtime asked isolate (.remember name key))
    : Custody runtime asked (isolate.remember name key)
      ∧ Precedes isolate (isolate.remember name key) := by
  refine ⟨⟨custody.entry, custody.inflight, custody.settled, ?_⟩,
    le_rfl, List.Subset.refl _, fun index flight found => ⟨flight, found, rfl⟩⟩
  intro other found there
  simp only [Isolate.remember] at there
  split at there
  · next same =>
      cases there
      subst same
      exact backed
  · exact custody.imported other found there

/-- Custody does not depend on the time. -/
theorem Custody.wait (custody : Custody runtime asked isolate) (now : Millis)
    : Custody runtime asked (isolate.wait now) :=
  ⟨custody.entry, custody.inflight, custody.settled, custody.imported⟩

theorem custody_fresh (now : Millis)
    : Custody runtime asked (Isolate.fresh now : Isolate Key) where
  entry some := absurd rfl some
  inflight flight found := by contradiction
  settled flight member := by contradiction
  imported name key found := by contradiction

-----------------------------------------------------------------------------------------
-- One turn
-----------------------------------------------------------------------------------------

/-- What a turn leaves, by cases on the turn: the isolate as it was, a fetch joined or started, a
document installed, or the fetch settled or the key remembered that the turn names.
-/
theorem Turn.compute_cases {taken : Turn Key} {reply : taken.Ret}
    (computed : taken.compute runtime options input isolate = some (reply, next))
    : next = isolate ∨ next = (isolate.fetchJwks input.later).2
      ∨ (∃ document, next = isolate.install document)
      ∨ (∃ flight result, taken = .settle flight result ∧ next = isolate.settle flight result)
      ∨ ∃ name key, taken = .remember name key ∧ next = isolate.remember name key := by
  cases taken with
  | resolveKey cacheKey =>
      simp only [Turn.compute, Isolate.resolveKey, Isolate.loadKeys, Option.some.injEq] at computed
      split at computed
      · cases computed
        exact .inl rfl
      · split at computed
        · cases computed
          exact .inl rfl
        · split at computed
          · cases computed
            exact .inl rfl
          · cases computed
            exact .inr (.inl rfl)
  | kvAnswered at' =>
      simp only [Turn.compute, Isolate.kvAnswered] at computed
      split at computed
      · cases computed
        exact .inl rfl
      · split at computed
        · split at computed
          · cases computed
            exact .inr (.inr (.inl ⟨_, rfl⟩))
          · cases computed
            exact .inr (.inl rfl)
        · cases computed
          exact .inr (.inl rfl)
  | received =>
      simp only [Turn.compute, Isolate.received, Option.some.injEq] at computed
      split at computed
      · cases computed
        exact .inl rfl
      · cases computed
        exact .inr (.inr (.inl ⟨_, rfl⟩))
  | kvPut document =>
      cases computed
      exact .inl rfl
  | settle flight result =>
      cases computed
      exact .inr (.inr (.inr (.inl ⟨flight, result, rfl, rfl⟩)))
  | joined flight =>
      obtain ⟨_, _, same⟩ := Option.map_eq_some_iff.mp computed
      cases same
      exact .inl rfl
  | retry =>
      simp only [Turn.compute, Isolate.retry, Option.some.injEq] at computed
      split at computed
      · cases computed
        exact .inl rfl
      · cases computed
        exact .inr (.inl rfl)
  | remember cacheKey key =>
      cases computed
      exact .inr (.inr (.inr (.inr ⟨cacheKey, key, rfl, rfl⟩)))
  | clock =>
      cases computed
      exact .inl rfl

/-- Every turn keeps custody, the two that need it being backed. -/
theorem Custody.compute (custody : Custody runtime asked isolate) {taken : Turn Key}
    {reply : taken.Ret} (backed : Backed runtime asked isolate taken)
    (computed : taken.compute runtime options input isolate = some (reply, next))
    : Custody runtime asked next ∧ Precedes isolate next := by
  rcases Turn.compute_cases computed with rfl | rfl | ⟨document, rfl⟩ | ⟨flight, result, rfl, rfl⟩
    | ⟨name, key, rfl, rfl⟩
  · exact ⟨custody, .refl _⟩
  · exact custody.fetchJwks input.later
  · exact custody.install document
  · exact custody.settle backed
  · exact custody.remember backed

/-- The same with the time that passes. -/
theorem Custody.exec (custody : Custody runtime asked isolate) {taken : Turn Key}
    {reply : taken.Ret} (backed : Backed runtime asked isolate taken)
    (executes : taken.exec runtime options isolate reply next)
    : Custody runtime asked next ∧ Precedes isolate next := by
  obtain ⟨input, middle, forward, onward, computed, rfl⟩ := executes
  obtain ⟨kept, precedes⟩ := custody.compute backed computed
  refine ⟨kept.wait input.after, ?_, precedes.documents, precedes.flights⟩
  exact forward.trans onward

end WorkersAuth.Neon

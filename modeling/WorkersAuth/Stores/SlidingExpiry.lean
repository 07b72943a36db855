import WorkersAuth.Stores.Histories
import WorkersAuth.Windows.Sliding

/-! A touch never revives a session.
What a store has of a session is a window. On D1 and Postgres every call lets the window
slide; on KV the blind write of an idle marker does so only when the session is live and the
marker reaches past the first idle window.
-/

namespace WorkersAuth.Stores

open Atomic Tables Windows

variable {platform : Platform} {time : Millis} {before after : Storage} {sidHash : String}
  {store : SessionStore} {request : Request} {answer : Answer}

-----------------------------------------------------------------------------------------
-- The window of a session
-----------------------------------------------------------------------------------------

def SessionRow.window (row : SessionRow) : Window Millis :=
  .clamp row.idleExpiresAt row.absoluteExpiresAt

def StoredSession.window (record : StoredSession) (seen : Option SeenMarker) : Window Millis :=
  .clamp ((seen.map SeenMarker.e).getD record.derivedIdleExpiry) record.absoluteExpiresAt

namespace Storage

variable (storage : Storage) (sidHash : String)

/-- The record KV has of a session now. -/
def record : Option StoredSession := storage.records.read sidHash storage.kvNow

/-- The idle marker KV has of a session now. -/
def marker : Option SeenMarker := storage.seen.read sidHash storage.kvNow

end Storage

/-- The window of the session that a store has under a hash. -/
def SessionStore.window (store : SessionStore) (storage : Storage) (sidHash : String)
    : Option (Window Millis) :=
  if store.usesKv then
    (storage.record sidHash).map (fun record => record.window (storage.marker sidHash))
  else
    (storage.rows.find sidHash).map SessionRow.window

/-- A row is expired when its window has ended. -/
theorem SessionRow.expired_iff {row : SessionRow} : row.expired time = true ↔ row.window.idle ≤ time := by
  simp [SessionRow.expired, SessionRow.window, Window.clamp_ended]

/-- A record is expired when its window has ended. -/
theorem StoredSession.expired_iff {record : StoredSession} {seen : Option SeenMarker}
    : record.expired seen time = true ↔ (record.window seen).idle ≤ time := by
  simp only [StoredSession.expired, StoredSession.window, StoredSession.idleExpiresAt,
    Window.clamp_ended, Bool.or_eq_true, decide_eq_true_eq, min_le_iff]
  exact ⟨fun expired => expired.elim .inr id, .inr⟩

-----------------------------------------------------------------------------------------
-- When a touch is harmless
-----------------------------------------------------------------------------------------

/-- A KV touch that is about to write its marker finds the session live, and the marker reaches
at least to the end of the first idle window. Touches on D1 and Postgres need no such care.
-/
def touchesLive (platform : Platform) (store : SessionStore) (before : Storage) (event : Event) : Bool :=
  match store, event.request with
  | .kv options, .touch isolate sid idleExpiresAt =>
      let sidHash := sha256Hex platform sid
      let writes := decide (event.time < idleExpiresAt)
        && ((before.guards isolate).allows sidHash event.time (options.touchThrottleSec * sec)).1
      !writes || (before.record sidHash).all (fun record =>
        !record.expired (before.marker sidHash) event.time
          && decide (record.idleExpiresAt none ≤ idleExpiresAt))
  | _, _ => true

/-- What that says of a touch that writes. -/
theorem live_of_touchesLive {options : KvSessionStoreOptions} {isolate : Nat} {sid : String}
    {idleExpiresAt : Millis} {record : StoredSession}
    (live : touchesLive platform (.kv options) before
      ⟨time, .touch isolate sid idleExpiresAt, answer⟩ = true)
    (early : time < idleExpiresAt)
    (admitted : ((before.guards isolate).allows (sha256Hex platform sid) time
      (options.touchThrottleSec * sec)).1 = true)
    (stored : before.record (sha256Hex platform sid) = some record)
    : time < (record.window (before.marker (sha256Hex platform sid))).idle
      ∧ record.idleExpiresAt none ≤ idleExpiresAt := by
  simp only [touchesLive, early, decide_true, admitted, Bool.and_self, Bool.not_true, Bool.false_or,
    stored, Option.all_some, Bool.and_eq_true, Bool.not_eq_eq_eq_not, decide_eq_true_eq] at live
  rw [Bool.eq_false_iff, Ne, StoredSession.expired_iff, not_le] at live
  exact live

/-- Idle markers reach at least to the end of the first idle window, so that a session whose
marker KV drops does not live longer.
-/
def MarkersLong (storage : Storage) : Prop :=
  ∀ sidHash record pair, storage.record sidHash = some record →
    storage.seen.current.find sidHash = some pair → record.idleExpiresAt none ≤ pair.value.e

/-- What was read of a key later, of no more versions, could be read before. -/
theorem KvSpace.read_of_later {α : Type} {space later : KvSpace α} {readAt laterAt : Millis} {value : α}
    (versions : ∀ pair, later.current.find sidHash = some pair → space.current.find sidHash = some pair)
    (forward : readAt ≤ laterAt) (read : later.read sidHash laterAt = some value)
    : space.read sidHash readAt = some value := by
  obtain ⟨pair, found, fresh, same⟩ := KvSpace.read_eq_some.mp read
  exact KvSpace.read_eq_some.mpr ⟨pair, versions pair found, forward.trans_lt fresh, same⟩

/-- A window whose marker is dropped ends no later. -/
theorem window_nears {record : StoredSession} {seen : Option SeenMarker} (long : MarkersLong before)
    (stored : before.record sidHash = some record)
    (known : ∀ marker ∈ seen, before.marker sidHash = some marker)
    : (record.window seen).idle ≤ (record.window (before.marker sidHash)).idle := by
  cases seen with
  | some marker => rw [known marker rfl]
  | none =>
      cases visible : before.marker sidHash with
      | none => exact le_rfl
      | some marker =>
          obtain ⟨pair, found, _, rfl⟩ := KvSpace.read_eq_some.mp visible
          refine le_min ?_ (min_le_right _ _)
          exact long sidHash record pair stored found

-----------------------------------------------------------------------------------------
-- Every call lets the windows slide
-----------------------------------------------------------------------------------------

/-- KV's windows slide where no session and no marker of them has been written. -/
theorem kv_slides (usesKv : store.usesKv = true) (long : MarkersLong before)
    (records : ∀ pair, after.records.current.find sidHash = some pair →
      before.records.current.find sidHash = some pair)
    (seen : ∀ pair, after.seen.current.find sidHash = some pair →
      before.seen.current.find sidHash = some pair)
    (forward : before.kvNow ≤ after.kvNow)
    : Slides time (store.window before sidHash) (store.window after sidHash) := by
  simp only [SessionStore.window, usesKv, if_true]
  cases read : after.record sidHash with
  | none => exact .gone
  | some record =>
      have stored : before.record sidHash = some record :=
        KvSpace.read_of_later records forward read
      rw [stored]
      refine .nears (window_nears long stored ?_) rfl
      intro marker visible
      exact KvSpace.read_of_later seen forward visible

/-- The windows of a SQL store slide where every row was there before. -/
theorem sql_slides (sql : store.usesKv = false)
    (rows : ∀ row, after.rows.find sidHash = some row → before.rows.find sidHash = some row)
    : Slides time (store.window before sidHash) (store.window after sidHash) := by
  simp only [SessionStore.window, sql, Bool.false_eq_true, if_false]
  cases found : after.rows.find sidHash with
  | none => exact .gone
  | some row =>
      rw [rows row found]
      exact .refl _

/-- The window of a stored session slides with every call, by cases on the effect. -/
theorem Effect.slides {event : Event}
    (effect : Effect platform store event.time before event.request event.answer after)
    (live : touchesLive platform store before event = true) (drawn : sidHash ∈ before.drawn)
    (long : MarkersLong before)
    : Slides event.time (store.window before sidHash) (store.window after sidHash) := by
  obtain ⟨time, request, answer⟩ := event
  dsimp only at effect ⊢
  cases effect with
  | refused => exact .refl _
  | @createdRow input sid rows sql unused inserted =>
      refine sql_slides sql (fun row found => ?_)
      rw [Table.find_insert inserted] at found
      split at found
      · next same =>
          subst same
          exact absurd drawn unused.1
      · exact found
  | @createdRecord input sid kvTime ttl usesKv unused forward =>
      refine kv_slides usesKv long (fun pair found => ?_) (fun _ found => found) forward
      rw [KvSpace.find_put] at found
      split at found
      · next same =>
          subst same
          exact absurd drawn unused.1
      · exact found
  | @touchedRow isolate sid idleExpiresAt sql =>
      simp only [SessionStore.window, sql, Bool.false_eq_true, if_false, Table.find_updateWhere]
      cases found : before.rows.find sidHash with
      | none => exact .gone
      | some row =>
          simp only [Option.map_some]
          split
          · next applies =>
              simp only [Bool.and_eq_true, decide_eq_true_eq] at applies
              obtain ⟨⟨_, idle⟩, absolute⟩ := applies
              exact .used (lt_min idle absolute) rfl
          · exact .refl _
  | unmarked usesKv => exact .refl _
  | @marked isolate sid idleExpiresAt kvTime ttl guards options same early admitted forward =>
      subst same
      by_cases own : sidHash = sha256Hex platform sid
      · subst own
        cases read : before.records.read (sha256Hex platform sid) kvTime with
        | none =>
            simp only [SessionStore.window, SessionStore.usesKv, if_true, Storage.record, read]
            exact .gone
        | some record =>
            have stored : before.record (sha256Hex platform sid) = some record :=
              KvSpace.read_of_later (fun _ found => found) forward read
            obtain ⟨unexpired, _⟩ := live_of_touchesLive live early admitted stored
            simp only [SessionStore.window, SessionStore.usesKv, if_true, stored]
            simp only [Storage.record, read]
            exact .used unexpired rfl
      · refine kv_slides rfl long (fun _ found => found) (fun pair found => ?_) forward
        rw [KvSpace.find_put] at found
        split at found
        · next same => exact absurd same own
        · exact found
  | quiet quiet wanes now =>
      cases kind : store.usesKv with
      | false => exact sql_slides kind (wanes.rows sidHash)
      | true => exact kv_slides kind long (wanes.record sidHash) (wanes.seen sidHash) wanes.kvNow

/-- Markers stay long where nothing has been written to KV. -/
theorem markersLong_of_versions (long : MarkersLong before)
    (records : ∀ sidHash pair, after.records.current.find sidHash = some pair →
      before.records.current.find sidHash = some pair)
    (seen : ∀ sidHash pair, after.seen.current.find sidHash = some pair →
      before.seen.current.find sidHash = some pair)
    (forward : before.kvNow ≤ after.kvNow)
    : MarkersLong after := by
  intro sidHash record pair stored found
  exact long sidHash record pair (KvSpace.read_of_later (records sidHash) forward stored)
    (seen sidHash pair found)

/-- Markers stay long: a new session has none, and a touch of a live one writes a long one. -/
theorem Effect.markersLong {event : Event}
    (effect : Effect platform store event.time before event.request event.answer after)
    (live : touchesLive platform store before event = true) (accounted : before.Accounted)
    (long : MarkersLong before)
    : MarkersLong after := by
  obtain ⟨time, request, answer⟩ := event
  dsimp only at effect
  cases effect with
  | refused => exact long
  | createdRow sql unused inserted => exact long
  | @createdRecord input sid kvTime ttl usesKv unused forward =>
      intro sidHash record pair stored found
      by_cases own : sidHash = sha256Hex platform sid
      · subst own
        refine absurd (List.mem_map.mpr ⟨pair, accounted.seen _ _ found, ?_⟩) unused.2
        exact Table.key_of_find found
      · refine long sidHash record pair (KvSpace.read_of_later (fun old kept => ?_) forward stored) found
        simpa only [KvSpace.find_put, own, if_false] using kept
  | touchedRow sql => exact long
  | unmarked usesKv => exact long
  | @marked isolate sid idleExpiresAt kvTime ttl guards options same early admitted forward =>
      subst same
      intro sidHash record pair read found
      have stored : before.record sidHash = some record :=
        KvSpace.read_of_later (fun _ found => found) forward read
      rw [KvSpace.find_put] at found
      split at found
      · next same =>
          subst same
          cases found
          exact (live_of_touchesLive live early admitted stored).2
      · exact long sidHash record pair stored found
  | quiet quiet wanes now => exact markersLong_of_versions long wanes.record wanes.seen wanes.kvNow

-----------------------------------------------------------------------------------------
-- What a `get` shows of the window
-----------------------------------------------------------------------------------------

/-- Every row's idle expiry is cut off at its absolute one. -/
def RowsClamped (storage : Storage) : Prop :=
  ∀ sidHash row, storage.rows.find sidHash = some row → row.idleExpiresAt ≤ row.absoluteExpiresAt

/-- Rows stay so, by cases on the effect. -/
theorem Effect.rowsClamped (effect : Effect platform store time before request answer after)
    (clamped : RowsClamped before)
    : RowsClamped after := by
  cases effect with
  | @createdRow input sid rows sql unused inserted =>
      intro sidHash row found
      rw [Table.find_insert inserted] at found
      split at found
      · cases found
        exact min_le_right _ _
      · exact clamped sidHash row found
  | touchedRow sql =>
      intro sidHash row found
      simp only [Table.find_updateWhere, Option.map_eq_some_iff] at found
      obtain ⟨old, stored, changed⟩ := found
      split at changed
      · cases changed
        exact min_le_right _ _
      · cases changed
        exact clamped sidHash _ stored
  | quiet quiet wanes now => exact fun sidHash row found => clamped sidHash row (wanes.rows _ _ found)
  | refused => exact clamped
  | createdRecord usesKv unused forward => exact clamped
  | unmarked usesKv => exact clamped
  | marked same early admitted forward => exact clamped

/-- A session that is served has a window that is still open, and shows a clamped one. -/
theorem Found.open {sid : String} {session : Session}
    (found : Found platform .strong store time before sid session) (long : MarkersLong before)
    (clamped : RowsClamped before)
    : (∃ window ∈ store.window before (sha256Hex platform sid), time < window.idle)
      ∧ session.idleExpiresAt ≤ session.absoluteExpiresAt := by
  cases found with
  | @row row sql stored live unrevoked =>
      rw [Bool.eq_false_iff, Ne, SessionRow.expired_iff, not_le] at live
      refine ⟨⟨row.window, ?_, live⟩, clamped _ row stored⟩
      simp [SessionStore.window, sql, stored]
  | @record record seen recordTime seenTime usesKv recordForward read seenForward readSeen live unrevoked =>
      rw [Bool.eq_false_iff, Ne, StoredSession.expired_iff, not_le] at live
      have stored : before.record (sha256Hex platform sid) = some record :=
        KvSpace.read_of_later (fun _ found => found) recordForward (Eq.symm read)
      have nears : (record.window seen).idle ≤ _ := window_nears long stored (fun marker member => by
        cases member
        exact KvSpace.read_of_later (fun _ found => found) seenForward (Eq.symm readSeen))
      refine ⟨⟨_, ?_, live.trans_le nears⟩, min_le_right _ _⟩
      simp [SessionStore.window, usesKv, stored]

-----------------------------------------------------------------------------------------
-- Histories whose touches are harmless
-----------------------------------------------------------------------------------------

/-- One call of a store over strongly consistent KV, harmless if it is a touch. -/
def SessionStore.LiveStep (platform : Platform) (store : SessionStore) (before : Storage) (event : Event)
    (after : Storage)
    : Prop :=
  store.Step platform .strong before event after ∧ touchesLive platform store before event = true

/-- What holds of the storage throughout such a history. -/
structure WellKept (storage : Storage) : Prop where
  accounted : storage.Accounted
  markers : MarkersLong storage
  rows : RowsClamped storage

theorem wellKept_empty (now : Millis) : WellKept (.empty now) where
  accounted := accounted_empty now
  markers sidHash record pair stored found := by
    simp [Storage.empty, KvSpace.empty] at found
  rows sidHash row found := by simp [Storage.empty] at found

variable {event : Event} {earlier later : List Event} {storage finish : Storage}

theorem SessionStore.LiveStep.effect (step : store.LiveStep platform before event after)
    : Effect platform store event.time before event.request event.answer after :=
  serves_effect step.1

/-- One call keeps the storage well kept. -/
theorem SessionStore.LiveStep.wellKept (step : store.LiveStep platform before event after)
    (kept : WellKept before)
    : WellKept after where
  accounted := step.effect.accounted kept.accounted
  markers := step.effect.markersLong step.2 kept.accounted kept.markers
  rows := step.effect.rowsClamped kept.rows

/-- So do any number of calls. -/
theorem wellKept_of_history (run : Sequence (store.LiveStep platform) before earlier after)
    (kept : WellKept before)
    : WellKept after :=
  run.keeps WellKept (fun _ _ _ _ step kept => step.wellKept kept) kept

/-- KV's own time may pass between two calls. -/
theorem WellKept.pass (kept : WellKept storage) {kvTime : Millis} (forward : storage.kvNow ≤ kvTime)
    : WellKept { storage with kvNow := kvTime } where
  accounted :=
    ⟨kept.accounted.rows, kept.accounted.records, kept.accounted.record, kept.accounted.seen⟩
  markers := markersLong_of_versions kept.markers (fun _ _ found => found) (fun _ _ found => found) forward
  rows := kept.rows

/-- The stores refine sliding windows: over any history the window of a session that has been
created slides, at the times of the calls.
-/
theorem window_slides (run : Sequence (store.LiveStep platform) before earlier after)
    (kept : WellKept before) (drawn : sidHash ∈ before.drawn)
    : Sequence (fun first time second => Slides time first second) (store.window before sidHash)
        (earlier.map Event.time) (store.window after sidHash) := by
  refine (run.simulates (fun storage => WellKept storage ∧ sidHash ∈ storage.drawn)
    (fun storage => store.window storage sidHash) Event.time
    (fun event _ before after step kept => ?_) ⟨kept, drawn⟩).1
  obtain ⟨kept, drawn⟩ := kept
  exact ⟨step.effect.slides step.2 drawn kept.markers, step.wellKept kept, step.effect.drawn_mono drawn⟩

/-- A `get` at a time when the window has ended answers none. -/
theorem SessionStore.LiveStep.null {sid : String} {since : Millis}
    (step : store.LiveStep platform before event after) (kept : WellKept before)
    (gets : event.request = .get sid) (late : since ≤ event.time)
    (ended : Ended since (store.window before (sha256Hex platform sid)))
    : event.answer = .found none := by
  obtain ⟨time, request, answer⟩ := event
  subst gets
  obtain ⟨found, rfl⟩ := get_answers step.1
  cases found with
  | none => rfl
  | some session =>
      obtain ⟨⟨window, open', still⟩, _⟩ := (get_found step.1).open kept.markers kept.rows
      exact absurd (still.trans_le (ended window open')) (late.not_gt)

/-- A session has one absolute expiry: whatever a `get` shows is what its `create` set. -/
theorem absoluteExpiresAt_eq {start : Millis} {created : Event} {input : NewSession} {sid : String}
    {original session : Session} (run : Sequence (store.LiveStep platform) (.empty start) earlier storage)
    (member : event ∈ earlier) (gets : event.request = .get sid)
    (answers : event.answer = .found (some session)) (createdIn : created ∈ earlier)
    (creates : created.Created input original)
    (same : sha256Hex platform original.sid = sha256Hex platform sid)
    : session.absoluteExpiresAt = original.absoluteExpiresAt := by
  have different : created ≠ event := by
    rintro rfl
    exact absurd (creates.1.symm.trans gets) (by simp)
  obtain ⟨creating, created⟩ := creates
  rcases Sequence.before_or_after createdIn member different with
    ⟨front, back, rfl, later⟩ | ⟨front, back, rfl, later⟩
  · obtain ⟨first, early, rest⟩ := Sequence.append_iff.mp run
    obtain ⟨second, step, rest⟩ := Sequence.cons_iff.mp rest
    have kept := wellKept_of_history early (wellKept_empty start)
    have effect := step.effect
    rw [creating, created] at effect
    have owns := (effect.creates kept.accounted).1
    obtain ⟨middle, _, third, fourth, rfl, between, last, _⟩ := rest.cut later
    have owns := between.keeps _ (fun _ _ _ _ step owns => step.effect.owns owns) owns
    have found := last.1
    rw [SessionStore.Step, gets, answers] at found
    have kept := wellKept_of_history between (step.wellKept kept)
    obtain ⟨_, _, _, absolute⟩ := (get_found found).owned kept.accounted (same ▸ owns)
    exact absolute.trans effect.created_session.2.2.symm
  · obtain ⟨first, early, rest⟩ := Sequence.append_iff.mp run
    obtain ⟨second, step, rest⟩ := Sequence.cons_iff.mp rest
    have kept := wellKept_of_history early (wellKept_empty start)
    have found := step.1
    rw [SessionStore.Step, gets, answers] at found
    have drawn := step.effect.drawn_mono ((get_found found).drawn kept.accounted)
    obtain ⟨middle, _, third, fourth, rfl, between, last, _⟩ := rest.cut later
    have drawn := between.keeps _ (fun _ _ _ _ step drawn => step.effect.drawn_mono drawn) drawn
    have kept := wellKept_of_history between (step.wellKept kept)
    have effect := last.effect
    rw [creating, created] at effect
    exact absurd (same ▸ drawn) (effect.creates kept.accounted).2.1

/-- Every id that was drawn is that of a session that was created, by induction on the history. -/
theorem created_of_drawn {start : Millis}
    (run : Sequence (store.LiveStep platform) (.empty start) earlier storage)
    (drawn : sidHash ∈ storage.drawn)
    : ∃ created ∈ earlier, ∃ input original, created.Created input original
        ∧ sha256Hex platform original.sid = sidHash := by
  have all := run.history
    (fun past storage => ∀ sidHash ∈ storage.drawn, ∃ created ∈ past, ∃ input original,
      created.Created input original ∧ sha256Hex platform original.sid = sidHash)
    (fun past before event after step known sidHash drawn => by
      rcases step.effect.drawn drawn with old | ⟨input, session, creates, created, same⟩
      · obtain ⟨created, member, rest⟩ := known sidHash old
        exact ⟨created, List.mem_append_left _ member, rest⟩
      · exact ⟨event, by simp, input, session, ⟨creates, created⟩, same⟩)
    (by simp [Storage.empty])
  exact all sidHash drawn

/-- A touch never revives a session. Where every KV touch that writes finds the session live and
does not shorten its first idle window, a session whose window has ended at some time is
never served at or after that time, and every session that is served is within the absolute
expiry set when it was created.
-/
theorem touch_revives_nothing {start kvTime : Millis}
    (run : Sequence (store.LiveStep platform) (.empty start) earlier storage)
    (forward : storage.kvNow ≤ kvTime)
    (rest : Sequence (store.LiveStep platform) { storage with kvNow := kvTime } later finish)
    : (∀ created ∈ earlier, ∀ input original, created.Created input original →
        ∀ since,
          Ended since (store.window { storage with kvNow := kvTime } (sha256Hex platform original.sid)) →
          (∀ event ∈ later, since ≤ event.time) →
          ∀ event ∈ later, event.request = .get original.sid → event.answer = .found none)
      ∧ ∀ event ∈ earlier, ∀ sid session, event.request = .get sid →
          event.answer = .found (some session) →
          session.idleExpiresAt ≤ session.absoluteExpiresAt
          ∧ (∃ created ∈ earlier, ∃ input original, created.Created input original
              ∧ sha256Hex platform original.sid = sha256Hex platform sid)
          ∧ ∀ created ∈ earlier, ∀ input original, created.Created input original →
              sha256Hex platform original.sid = sha256Hex platform sid →
              session.absoluteExpiresAt = original.absoluteExpiresAt := by
  refine ⟨?_, ?_⟩
  · intro created createdIn input original creates since ended late event member gets
    have kept := wellKept_of_history run (wellKept_empty start)
    have drawn : sha256Hex platform original.sid ∈ storage.drawn := by
      obtain ⟨front, back, first, second, rfl, early, step, between⟩ := run.cut createdIn
      have effect := step.effect
      rw [creates.1, creates.2] at effect
      have owns := (effect.creates (wellKept_of_history early (wellKept_empty start)).accounted).1
      exact between.keeps _ (fun _ _ _ _ step drawn => step.effect.drawn_mono drawn) owns.drawn
    obtain ⟨front, back, first, second, rfl, early, step, _⟩ := rest.cut member
    have still : Ended since (store.window first (sha256Hex platform original.sid)) := by
      refine ended_forever (window_slides early (kept.pass forward) drawn) ?_ ended
      simp only [List.mem_map, forall_exists_index, and_imp, forall_apply_eq_imp_iff₂]
      exact fun event before => late event (List.mem_append_left _ before)
    have kept := wellKept_of_history early (kept.pass forward)
    exact step.null kept gets (late event member) still
  · intro event member sid session gets answers
    refine ⟨?_, ?_, ?_⟩
    · obtain ⟨front, back, first, second, rfl, early, step, _⟩ := run.cut member
      have kept := wellKept_of_history early (wellKept_empty start)
      have found := step.1
      rw [SessionStore.Step, gets, answers] at found
      exact ((get_found found).open kept.markers kept.rows).2
    · obtain ⟨front, back, first, second, rfl, early, step, _⟩ := run.cut member
      have kept := wellKept_of_history early (wellKept_empty start)
      have found := step.1
      rw [SessionStore.Step, gets, answers] at found
      obtain ⟨created, createdIn, rest⟩ := created_of_drawn early ((get_found found).drawn kept.accounted)
      exact ⟨created, List.mem_append_left _ createdIn, rest⟩
    · intro created createdIn input original creates same
      exact absoluteExpiresAt_eq run member gets answers createdIn creates same

/-- On KV a session is used after 50 minutes, so its window ends 110 minutes after its creation; a
touch after 111 minutes would be harmful, a `get` then answers none.
-/
theorem touch_revives_nothing_played
    : ∃ earlier later storage finish, ∃ created event : Event, ∃ input original since,
        Sequence (Sample.kv.LiveStep Sample.platform) Sample.empty earlier storage
        ∧ Sequence (Sample.kv.LiveStep Sample.platform) storage later finish
        ∧ created ∈ earlier ∧ created.Created input original
        ∧ Ended since (Sample.kv.window storage (sha256Hex Sample.platform original.sid))
        ∧ event ∈ later ∧ event.request = .get original.sid ∧ event.answer = .found none := by
  obtain ⟨earlier, later, storage, finish, run, rest, shown⟩ :=
    Sample.exists_histories Sample.kv Sample.empty (touchesLive Sample.platform Sample.kv)
      [({ token := Sample.sid }, .create Sample.input), ({ now := 3000000 }, .touch 0 Sample.sid 6600000)]
      [({ now := 6660000 }, .get Sample.sid)]
      (fun earlier later storage _ => earlier.any Sample.createdEvent
        && decide (Ended 6600000 (Sample.kv.window storage (sha256Hex Sample.platform Sample.sid)))
        && later.all (fun event => 6600000 ≤ event.time)
        && later.any (Sample.gotEvent (fun _ => true)))
      (by decide +kernel)
  simp only [Bool.and_eq_true, List.any_eq_true, List.all_eq_true, decide_eq_true_eq] at shown
  obtain ⟨⟨⟨⟨created, createdIn, creates⟩, ended⟩, late⟩, event, member, gets⟩ := shown
  obtain ⟨input, original, creates, same⟩ := Sample.createdEvent_created creates
  obtain ⟨_, gets, _⟩ := Sample.gotEvent_got gets
  rw [← same] at ended gets
  have null := (touch_revives_nothing run (le_refl storage.kvNow) rest).1 created createdIn input original
    creates 6600000 ended late event member gets
  exact ⟨earlier, later, storage, finish, created, event, input, original, 6600000, run, rest, createdIn,
    creates, ended, member, gets, null⟩

/-- On KV a touch that is the first call after the expiry revives the session: the marker is written
blindly, and the next `get` serves it.
-/
theorem kvTouch_revives
    : ∃ earlier later storage finish, ∃ created event : Event, ∃ input original since session,
        Sequence (Sample.kv.Step Sample.platform .strong) Sample.empty earlier storage
        ∧ Sequence (Sample.kv.Step Sample.platform .strong) storage later finish
        ∧ created ∈ earlier ∧ created.Created input original
        ∧ Ended since (Sample.kv.window storage (sha256Hex Sample.platform original.sid))
        ∧ (∀ event ∈ later, since ≤ event.time)
        ∧ event ∈ later ∧ event.request = .get original.sid
        ∧ event.answer = .found (some session) := by
  obtain ⟨earlier, later, storage, finish, run, rest, shown⟩ :=
    Sample.exists_histories Sample.kv Sample.empty (fun _ _ => true)
      [({ token := Sample.sid }, .create Sample.input)]
      [({ now := 3600000 }, .touch 0 Sample.sid 7200000), ({ now := 3600001 }, .get Sample.sid)]
      (fun earlier later storage _ => earlier.any Sample.createdEvent
        && decide (Ended 3600000 (Sample.kv.window storage (sha256Hex Sample.platform Sample.sid)))
        && later.all (fun event => 3600000 ≤ event.time)
        && later.any (Sample.gotEvent Option.isSome))
      (by decide +kernel)
  simp only [Bool.and_eq_true, List.any_eq_true, List.all_eq_true, decide_eq_true_eq] at shown
  obtain ⟨⟨⟨⟨created, createdIn, creates⟩, ended⟩, late⟩, event, member, gets⟩ := shown
  obtain ⟨input, original, creates, same⟩ := Sample.createdEvent_created creates
  obtain ⟨answer, gets, found, served⟩ := Sample.gotEvent_got gets
  obtain ⟨session, rfl⟩ := Option.isSome_iff_exists.mp served
  rw [← same] at ended gets
  exact ⟨earlier, later, storage, finish, created, event, input, original, 3600000, session,
    run.weaken (fun _ _ _ _ step => step.1), rest.weaken (fun _ _ _ _ step => step.1), createdIn, creates,
    ended, late, member, gets, found⟩

end WorkersAuth.Stores

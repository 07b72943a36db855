import WorkersAuth.ApiKeys.Histories
import WorkersAuth.DeviceAuth.Deployment

/-! Histories of API keys that can be computed.
The outside gives each operation its time, the bytes that are drawn and the order of two KV reads;
the sample platform writes base64 and has recorded digests.
-/

namespace WorkersAuth.ApiKeys

open Atomic Encodings Tables

-----------------------------------------------------------------------------------------
-- Computing the operations
-----------------------------------------------------------------------------------------

/-- What the outside puts into an operation. -/
structure Outside where
  readAt : Millis := 1
  keyId : Bytes := []
  secret : Bytes := []
  recordFirst : Bool := true

instance (storage : Storage) (keyId : String) : Decidable (storage.Unused keyId) :=
  inferInstanceAs (Decidable (_ ∧ _))

/-- Every operation, computed. -/
def compute (platform : Platform) (clock : Millis → Prop) [DecidablePred clock]
    : Runner Op Op.Reply Storage Outside
  | outside, .clock, storage =>
      if clock outside.readAt then some (outside.readAt, storage) else none
  | outside, .randomKeyId, storage =>
      if outside.keyId.length = 12 ∧ storage.Unused (toHex outside.keyId) then
        some (outside.keyId, storage.draw (toHex outside.keyId))
      else none
  | outside, .randomToken, storage =>
      if outside.secret.length = 32 then some (base64urlEncode platform outside.secret, storage)
      else none
  | outside, .recordFirst, storage => some (outside.recordFirst, storage)
  | _, .getText key, storage => some (storage.text key, storage)
  | _, .putText key text, storage => some ((), storage.putText key text)
  | _, .selectRow keyId, storage => some (storage.rows.find keyId, storage)
  | _, .upsertRow row, storage => some ((), storage.upsertRow row)
  | _, .revokeRow keyId revokedAt, storage => some ((), storage.revokeRow keyId revokedAt)
  | _, .touchRow keyId lastUsedAt, storage => some ((), storage.touchRow keyId lastUsedAt)

/-- Computed operations are operations of the stores, by cases on the operation. -/
theorem compute_sound (platform : Platform) (clock : Millis → Prop) [DecidablePred clock]
    : (compute platform clock).Sound (exec platform clock) := by
  intro outside op before reply after computed
  cases op with
  | clock =>
      simp only [compute, Option.ite_none_right_eq_some] at computed
      obtain ⟨allowed, same⟩ := computed
      cases same
      exact ⟨allowed, rfl⟩
  | randomKeyId =>
      simp only [compute, Option.ite_none_right_eq_some] at computed
      obtain ⟨⟨length, unused⟩, same⟩ := computed
      cases same
      exact ⟨length, unused, rfl⟩
  | randomToken =>
      simp only [compute, Option.ite_none_right_eq_some] at computed
      obtain ⟨length, same⟩ := computed
      cases same
      exact ⟨⟨outside.secret, length, rfl⟩, rfl⟩
  | getText key =>
      cases computed
      exact ⟨rfl, rfl⟩
  | selectRow keyId =>
      cases computed
      exact ⟨rfl, rfl⟩
  | _ =>
      cases computed
      rfl

/-- A request, computed. -/
def serveAt (platform : Platform) (backend : Backend) (asked : Request × Outside) (before : Storage)
    : Option (Event × Storage) :=
  ((serve platform backend.store asked.1).compute
      (compute platform (· = asked.2.readAt)) asked.2 before).map
    (fun answered => (⟨asked.1, answered.1, asked.2.readAt⟩, answered.2))

/-- A computed request has been served, at its time. -/
theorem serves_of_serveAt {platform : Platform} {backend : Backend} {asked : Request × Outside}
    {before after : Storage} {event : Event}
    (computed : serveAt platform backend asked before = some (event, after))
    : Serves platform backend before event after ∧ event.request = asked.1
      ∧ event.readAt = asked.2.readAt := by
  obtain ⟨⟨answer, finish⟩, answered, same⟩ := Option.map_eq_some_iff.mp computed
  cases same
  exact ⟨Program.compute_sound (compute_sound platform _) answered, rfl, rfl⟩

-----------------------------------------------------------------------------------------
-- The sample
-----------------------------------------------------------------------------------------

namespace Sample

/-- The recorded digests, and base64 as it is written. -/
def platform : Platform :=
  { WorkersAuth.Sample.platform with btoa := fun bytes => .ofList (base64 bytes) }

theorem platform_sha256_injective : Function.Injective platform.sha256 :=
  WorkersAuth.Sample.platform_sha256_injective

/-- A key for a service, which lives an hour. -/
def input : IssueApiKeyInput where
  env := "live"
  subjectId := "svc_reporting"
  ttlSec := some (.finite 3600)

def keyIdBytes : Bytes := (List.range 12).map UInt8.ofNat

def keyId : String := "000102030405060708090a0b"

def secretBytes : Bytes := (List.range 32).map (fun index => UInt8.ofNat (index + 64))

def key : String := "tk_live_000102030405060708090a0b.QEFCQ0RFRkdISUpLTE1OT1BRUlNUVVZXWFlaW1xdXl8"

/-- The key is issued at the time 1000. -/
def issuing : Request × Outside :=
  (.issue input, { readAt := 1000, keyId := keyIdBytes, secret := secretBytes })

/-- A key that is issued at the time 1000 into an empty storage. -/
theorem issued_at {backend : Backend} {input : IssueApiKeyInput}
    (computed : (serveAt platform backend (.issue input, issuing.2) .empty).any
      (fun served => served.1.issued.isSome) = true)
    : ∃ issued after,
        Serves platform backend .empty ⟨.issue input, .issued (.ok issued), 1000⟩ after := by
  obtain ⟨⟨⟨request, answer, readAt⟩, after⟩, served, made⟩ := (Option.any_eq_true ..).mp computed
  obtain ⟨serves, rfl, rfl⟩ := serves_of_serveAt served
  obtain ⟨issued, issue⟩ := Option.isSome_iff_exists.mp made
  unfold Event.issued at issue
  split at issue
  · next same =>
      cases same
      exact ⟨_, after, serves⟩
  · cases issue

/-- A request with a key. -/
def request (key : String) : HttpRequest where
  method := "GET"
  url := "https://app.example.com/api/jobs"
  header name := if name = "authorization" then some ("Bearer " ++ key) else none
  cookie _ := none
  body := .body none

end Sample

end WorkersAuth.ApiKeys

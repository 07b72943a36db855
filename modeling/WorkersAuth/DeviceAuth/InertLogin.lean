import WorkersAuth.DeviceAuth.Forgery

/-! PIN logins without a live device.
What a login does before it has a granted attempt depends on the PIN in no way, and without a live
device with an open guard it gets no attempt.
-/

namespace WorkersAuth

open Atomic Program DeviceAuth

namespace DeviceAuth

variable (platform : Platform) (cfg : Config)

-----------------------------------------------------------------------------------------
-- The phases of a login
-----------------------------------------------------------------------------------------

variable {platform cfg}

section

variable {σ : Type} {sessions : Semantics SessionCall SessionCall.Reply σ} {start finish : World σ}
  {req : HttpRequest} {now : Millis} {calls : List (Call Op Op.Reply)} {answer : Response}

/-- The calls before the device: a session is read or revoked, a hit is counted, a hook is asked. -/
def Op.Checks : Op → Prop
  | .session (.get _) => True
  | .session (.revoke _) => True
  | .store (.findDevice _) => True
  | .store (.hitRateLimit ..) => True
  | .host (.derive ..) => False
  | .host _ => True
  | _ => False

theorem DeadSession.mono {more : List (Call Op Op.Reply)} {sid : String}
    (dead : DeadSession calls sid) (within : ∀ call ∈ calls, call ∈ more)
    : DeadSession more sid := by
  obtain ⟨session, deviceId, device, readAt, found, bound, looked, read, ended⟩ := dead
  exact ⟨session, deviceId, device, readAt, within _ found, bound, within _ looked, within _ read, ended⟩

/-- The tables other than the counters are as they were. -/
structure SameAccounts (before after : Database) : Prop where
  codes : after.codes = before.codes
  devices : after.devices = before.devices
  creds : after.creds = before.creds
  guards : after.guards = before.guards

/-- Before the device no PIN is derived, no table but the counters' changes, and only sessions whose
device is dead are revoked.
-/
structure Checked (start finish : World σ) (calls : List (Call Op Op.Reply)) : Prop where
  checks : ∀ call ∈ calls, Op.Checks call.op
  revokes : ∀ revoked, ⟨.session (.revoke revoked), ()⟩ ∈ calls → DeadSession calls revoked
  accounts : SameAccounts start.db finish.db

end

end DeviceAuth

namespace Sample

end Sample

namespace DeviceAuth

end DeviceAuth

end WorkersAuth

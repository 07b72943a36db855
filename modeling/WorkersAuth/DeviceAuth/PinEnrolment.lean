import WorkersAuth.BearerTokens
import WorkersAuth.DeviceAuth.PinLogin

/-! What a request writes into credentials.
Only `POST /pin` stores a credential, with an enrolment of the PIN it was sent. Only `POST /pin/login`
rewrites one: the one it has loaded, with an enrolment of a PIN that matched it.
-/

namespace WorkersAuth.DeviceAuth

open Atomic

variable (platform : Platform) (cfg : Config)

-----------------------------------------------------------------------------------------
-- The protocol
-----------------------------------------------------------------------------------------

/-- A credential is replaced by the PIN of the request that does it, and rewritten by a request that
has loaded it, with an enrolment of a PIN that matched it.
-/
def pinProtocol (journal : Journal Op Op.Reply Request) : Op → Prop
  | .store (.replaceCredential record _) =>
      record.type = .pin ∧ ∃ req pin, journal.request = .setPin req
        ∧ isPinFormat (req.field "pin") = some pin
        ∧ PinMatches platform (cfg.keys platform) pin record.material
  | .store (.markCredentialUsed credentialId _ (some material)) =>
      ∃ accountId credential pin,
        ⟨.store (.getActiveCredential accountId .pin), some credential⟩ ∈ journal.history
        ∧ credential.credentialId = credentialId ∧ isDigits 6 pin
        ∧ PinMatches platform (cfg.keys platform) pin credential.material
        ∧ PinMatches platform (cfg.keys platform) pin material
  | _ => True

abbrev pinMonitor : Monitor Op Op.Reply (Journal Op Op.Reply Request) :=
  .journal (pinProtocol platform cfg) (Replies platform)

/-- A call that sets no PIN and rewrites none. -/
def touchesNoPin : Op → Prop
  | .store (.replaceCredential ..) => False
  | .store (.markCredentialUsed ..) => False
  | _ => True

variable {platform cfg} {journal : Journal Op Op.Reply Request} {request : Request}
  {calls : List (Call Op Op.Reply)}

theorem pinProtocol_of_touchesNoPin {op : Op} (free : touchesNoPin op)
    : pinProtocol platform cfg journal op := by
  rcases op with call | call | call
  · cases call <;> first | exact free.elim | trivial
  · trivial
  · trivial

theorem touchesNoPin_of_incidental {op : Op} (incidental : op.Incidental) : touchesNoPin op := by
  rcases op with call | call | call
  · cases call <;> first | exact incidental.elim | trivial
  · trivial
  · trivial

theorem touchesNoPin_of_minting {op : Op} (minting : op.Minting) : touchesNoPin op := by
  rcases op with call | call | call
  · cases call <;> first | exact minting.elim | trivial
  · trivial
  · trivial

/-- A part of a request that sets no PIN, then the rest. -/
theorem pin_plumbing {α β : Type} {part : Handler β} {rest : β → Handler α}
    {post : Journal Op Op.Reply Request → α → Prop} (within : part.Within touchesNoPin)
    (knows : journal.Knows request calls)
    (later : ∀ answer next, Journal.Knows request calls next
      → (rest answer).Obeys (pinMonitor platform cfg) post next)
    : (part >>= rest).Obeys (pinMonitor platform cfg) post journal :=
  within.obeys_journal (fun _ _ _ => pinProtocol_of_touchesNoPin) knows later

/-- A part of a request that sets no PIN, and nothing after it. -/
theorem pin_free {α : Type} {part : Handler α} (within : part.Within touchesNoPin)
    : part.Obeys (pinMonitor platform cfg) (fun _ _ => True) journal :=
  within.obeys_free (fun _ _ => pinProtocol_of_touchesNoPin)

/-- What is enrolled matches the PIN: base64url reads back what it wrote. -/
theorem enroll_matches (writes : StandardBtoa platform) (reads : StandardAtob platform)
    {iterations : Nat} {pin : String} (knows : journal.Knows request calls)
    : (enroll platform iterations pin (cfg.keys platform)).Obeys (pinMonitor platform cfg)
        (fun next answer => Journal.Knows request calls next
          ∧ ∀ material ∈ answer, PinMatches platform (cfg.keys platform) pin material) journal := by
  unfold enroll
  refine .perform trivial (fun salt _ => .perform trivial (fun hash derived => ?_))
  have kept := (knows.write (.host (.randomBytes saltBytes)) salt).write
    (.host (.derive pin (cfg.keys platform).current.pepperKey salt iterations)) hash
  have derives : hash = platform.pbkdf2 (platform.hmac (cfg.keys platform).current.pepperKey pin) salt
      iterations := derived
  cases hash with
  | none => exact .answer ⟨kept, by simp⟩
  | some hash =>
      refine .answer ⟨kept, ?_⟩
      rintro _ ⟨⟩
      exact ⟨_, _, salt, hash, pinMaterial?_toJson _, buildKeyRing_get_current ..,
        base64urlDecode_encode writes reads salt, base64urlDecode_encode writes reads hash,
        derives.symm⟩

/-- What a verification enrols again matches the PIN that matched. -/
theorem pinVerify_matches (writes : StandardBtoa platform) (reads : StandardAtob platform)
    {iterations : Nat} {pin : String} {material : JsonObject} (knows : journal.Knows request calls)
    : (pinVerify platform iterations pin material (cfg.keys platform)).Obeys (pinMonitor platform cfg)
        (fun next answer => Journal.Knows request calls next
          ∧ ∀ upgraded, answer = some (.ok (some upgraded)) →
            PinMatches platform (cfg.keys platform) pin material
            ∧ PinMatches platform (cfg.keys platform) pin upgraded) journal := by
  unfold pinVerify
  split
  · exact .answer ⟨knows, by simp⟩
  next stored read =>
  split
  · exact .answer ⟨knows, by simp⟩
  next derived known =>
  split
  case h_2 => exact .answer ⟨knows, by simp⟩
  next expected salt hash_eq salt_eq =>
  refine .perform trivial (fun actual possible => ?_)
  have kept := knows.write (.host (.derive pin derived.pepperKey salt stored.iterations)) actual
  have derives : actual = platform.pbkdf2 (platform.hmac derived.pepperKey pin) salt stored.iterations :=
    possible
  cases actual with
  | none => exact .answer ⟨kept, by simp⟩
  | some actual =>
      dsimp only
      split
      · exact .answer ⟨kept, by simp⟩
      next same =>
      have matching : PinMatches platform (cfg.keys platform) pin material := by
        rw [pinMatches_iff pin read known salt_eq hash_eq, ← derives]
        simpa using same
      split
      · refine (enroll_matches writes reads kept).bind (fun next enrolled upgraded => ?_)
        cases enrolled with
        | none => exact .answer ⟨upgraded.1, by simp⟩
        | some material =>
            refine .answer ⟨upgraded.1, ?_⟩
            rintro _ ⟨⟩
            exact ⟨matching, upgraded.2 material rfl⟩
      · exact .answer ⟨kept, by simp⟩

-----------------------------------------------------------------------------------------
-- The routes
-----------------------------------------------------------------------------------------

/-- `POST /pin` stores an enrolment of the PIN it was sent. -/
theorem setPin_pins (writes : StandardBtoa platform) (reads : StandardAtob platform) (req : HttpRequest)
    : (setPin platform cfg req).Obeys (pinMonitor platform cfg) (fun _ _ => True)
        ⟨.setPin req, []⟩ := by
  have incidental {α : Type} {part : Handler α} (within : part.Within Op.Incidental)
      : part.Within touchesNoPin := within.mono (fun _ => touchesNoPin_of_incidental)
  have start : (⟨.setPin req, []⟩ : Journal Op Op.Reply Request).Knows (.setPin req) [] :=
    ⟨rfl, by simp⟩
  unfold setPin
  refine pin_plumbing (incidental (gate_incidental ..)) start (fun gated journal knows => ?_)
  split
  · trivial
  · trivial
  refine .recall knows trivial (fun now journal _ knows => ?_)
  split
  · trivial
  split
  · trivial
  split
  · trivial
  split
  case h_2 => trivial
  next pin pin_eq =>
  split
  · trivial
  refine (enroll_matches writes reads knows).bind (fun journal enrolled outcome => ?_)
  split
  case h_2 => trivial
  next material =>
  obtain ⟨knows, matching⟩ := outcome
  refine .recall knows trivial (fun bytes journal _ knows => ?_)
  refine .perform ⟨rfl, req, pin, knows.request_eq, pin_eq, matching material rfl⟩ (fun result _ => ?_)
  refine pin_free (.perform trivial (fun _ => ?_))
  split
  · refine (incidental (onEventIf_incidental (by trivial))).bind (fun _ => ?_)
    exact (incidental (revokeAllSessions_incidental ..)).bind (fun _ => trivial)
  · trivial

/-- `POST /pin/login` rewrites the credential it has loaded, with an enrolment of a PIN that matched. -/
theorem pinLogin_pins (writes : StandardBtoa platform) (reads : StandardAtob platform)
    (req : HttpRequest)
    : (pinLogin platform cfg req).Obeys (pinMonitor platform cfg) (fun _ _ => True)
        ⟨.pinLogin req, []⟩ := by
  have incidental {α : Type} {part : Handler α} (within : part.Within Op.Incidental)
      : part.Within touchesNoPin := within.mono (fun _ => touchesNoPin_of_incidental)
  have quiet {op : Op} (allowed : preludeCalls false op) (journal : Journal Op Op.Reply Request)
      : pinProtocol platform cfg journal op := by
    rcases op with call | call | call
    · cases call <;> first | exact allowed.elim | trivial
    · trivial
    · trivial
  have skips : Skips (pinMonitor platform cfg) false (Journal.Knows (.pinLogin req) [])
      (fun _ => Journal.Knows (.pinLogin req) []) :=
    ⟨fun journal op knows allowed => ⟨quiet allowed journal, fun reply => Journal.Knows.write knows op reply⟩,
      fun journal now knows => Journal.Knows.write knows (.host .clock) now,
      fun journal op now _ knows _ reply => Journal.Knows.write knows op reply⟩
  refine pinLogin_obeys platform cfg req skips ⟨rfl, by simp⟩ (fun _ _ _ _ => trivial)
    (fun journal pin now _ knows pin_eq => ?_)
  have digits : isDigits 6 pin := (Option.filter_eq_some_iff.mp pin_eq).2
  refine pin_plumbing (incidental (readDevice_incidental ..)) knows (fun presented journal knows => ?_)
  split
  · exact pin_free (.perform trivial (fun _ => trivial))
  next device =>
  refine .recall knows trivial (fun loaded journal _ knows => ?_)
  split
  · exact pin_free (.perform trivial (fun _ => trivial))
  refine pin_plumbing (.perform trivial (fun _ => trivial)) knows (fun granted journal knows => ?_)
  split
  · exact pin_free (.perform trivial (fun _ => trivial))
  refine (pinVerify_matches writes reads knows).bind (fun journal verified outcome => ?_)
  obtain ⟨knows, upgrades⟩ := outcome
  split
  · trivial
  · refine pin_free (.perform trivial (fun _ => ?_))
    split
    · exact .perform trivial (fun _ => .perform trivial (fun _ => trivial))
    · trivial
  next upgraded =>
  refine pin_plumbing (.perform trivial (fun _ => trivial)) knows (fun _ journal knows => ?_)
  refine .perform ?_ (fun _ _ => pin_free (.perform trivial (fun resolved => ?_)))
  · cases upgraded with
    | none => trivial
    | some material =>
        obtain ⟨matching, enrols⟩ := upgrades material rfl
        exact ⟨_, _, pin, knows.recorded _ List.mem_cons_self, rfl, digits, matching, enrols⟩
  split
  · exact .perform trivial (fun _ => trivial)
  refine .perform trivial (fun touched => ?_)
  split
  · exact .perform trivial (fun _ => trivial)
  refine (incidental (setDeviceCookie_incidental ..)).bind (fun _ => ?_)
  refine ((mintSession_within ..).mono (fun _ => touchesNoPin_of_minting)).bind (fun minted => ?_)
  split
  · trivial
  · exact .perform trivial (fun _ => trivial)

/-- Every request keeps to the protocol, by cases on the route. -/
theorem handle_pins (writes : StandardBtoa platform) (reads : StandardAtob platform) (request : Request)
    : (handle platform cfg request).Obeys (pinMonitor platform cfg) (fun _ _ => True)
        ⟨request, []⟩ := by
  have footprint := handle_within platform cfg request
  cases request with
  | setPin req => exact setPin_pins writes reads req
  | pinLogin req => exact pinLogin_pins writes reads req
  | _ =>
      refine pin_free (footprint.mono (fun op allowed => ?_))
      rcases op with call | call | call
      · cases call <;> first | exact allowed.elim | trivial
      · trivial
      · trivial

end WorkersAuth.DeviceAuth

import Mathlib.Data.Set.Function
import WorkersAuth.Atomic.Ensures
import WorkersAuth.BearerTokens
import WorkersAuth.DeviceAuth.Credentials
import WorkersAuth.DeviceAuth.Deployment

/-! PINs across rotations of the secret and changes of the cost.
Material names the secret that made it, and a ring finds the keys of exactly its own secrets. So a
PIN enrolled under one configuration verifies under another as long as the other still lists that
secret, and what the verification then stores belongs to the other one alone.
-/

namespace WorkersAuth.DeviceAuth

open Atomic
open Atomic.Program (Evaluates)

-----------------------------------------------------------------------------------------
-- Configurations
-----------------------------------------------------------------------------------------

def minPbkdf2Iterations : ℕ := 1000
def maxPbkdf2Iterations : ℕ := 100000
def defaultPbkdf2Iterations : ℕ := maxPbkdf2Iterations

/-- An iteration count that `pinCredential` takes. -/
structure PinCost where
  iterations : ℕ
  least : minPbkdf2Iterations ≤ iterations
  most : iterations ≤ maxPbkdf2Iterations

/-- What `pinCredential` makes of its option: the count, or the text of the error it throws. -/
def pinCredential (iterations : Option ℚ) : Except String PinCost :=
  let iterations := iterations.getD defaultPbkdf2Iterations
  if accepted : iterations.den = 1 ∧ (minPbkdf2Iterations : ℤ) ≤ iterations.num
      ∧ iterations.num ≤ (maxPbkdf2Iterations : ℤ) then
    .ok ⟨iterations.num.toNat, by omega, by omega⟩
  else
    .error "deviceAuth: pin.iterations must be an integer between 1000 and 100000"

/-- Every count in the range is taken as it is; the default is one. -/
theorem pinCredential_count (cost : PinCost)
    : pinCredential (some (cost.iterations : ℚ)) = .ok cost := by
  have accepted : (minPbkdf2Iterations : ℤ) ≤ cost.iterations
      ∧ (cost.iterations : ℤ) ≤ (maxPbkdf2Iterations : ℤ) :=
    ⟨by exact_mod_cast cost.least, by exact_mod_cast cost.most⟩
  simp [pinCredential, accepted]

/-- The configured secrets, all of them among the given ones. -/
structure SecretConfig (secrets : Set String) where
  secret : String
  previousSecrets : List String
  known : ∀ listed ∈ secret :: previousSecrets, listed ∈ secrets

/-- The current secret and the previous ones. -/
def SecretConfig.all {secrets : Set String} (config : SecretConfig secrets) : List String :=
  config.secret :: config.previousSecrets

def SecretConfig.ring {secrets : Set String} (platform : Platform) (config : SecretConfig secrets)
    : KeyRing :=
  buildKeyRing platform config.secret config.previousSecrets

-----------------------------------------------------------------------------------------
-- What is relied on
-----------------------------------------------------------------------------------------

/-- Different secrets have different key ids, and under one secret different PINs different
HMACs and different derivations.
-/
structure Separates (platform : Platform) (secrets pins : Set String) : Prop where
  keyId : secrets.InjOn (fun secret => (deriveKeys platform secret).keyId)
  hmac : ∀ secret ∈ secrets, pins.InjOn (platform.hmac (deriveKeys platform secret).pepperKey)
  pbkdf2 : ∀ secret ∈ secrets, ∀ first ∈ pins, ∀ second ∈ pins, ∀ salt iterations hash,
    platform.pbkdf2 (platform.hmac (deriveKeys platform secret).pepperKey first) salt iterations
      = some hash
    → platform.pbkdf2 (platform.hmac (deriveKeys platform secret).pepperKey second) salt iterations
      = some hash
    → platform.hmac (deriveKeys platform secret).pepperKey first
      = platform.hmac (deriveKeys platform secret).pepperKey second

/-- What the runtime documents: base64 is written and read, and PBKDF2 takes every count up to
its limit.
-/
structure Documented (platform : Platform) : Prop where
  btoa : StandardBtoa platform
  atob : StandardAtob platform
  derives : ∀ password salt (cost : PinCost),
    (platform.pbkdf2 password salt cost.iterations).isSome

-----------------------------------------------------------------------------------------
-- Rings
-----------------------------------------------------------------------------------------

section

variable {platform : Platform} {secrets pins : Set String}

/-- The map finds the keys of the given secrets, and of no other known one. -/
def Finds (platform : Platform) (secrets : Set String) (byId : List (String × DerivedKeys))
    (listed : List String)
    : Prop :=
  ∀ sought ∈ secrets, byId.lookup (deriveKeys platform sought).keyId
    = if sought ∈ listed then some (deriveKeys platform sought) else none

/-- Adding a previous secret, whether it is new or listed already, adds it to what is found. -/
theorem Finds.add {secret previous : String} {byId : List (String × DerivedKeys)}
    {listed : List String} (separates : Separates platform secrets pins)
    (finds : Finds platform secrets byId listed) (current : secret ∈ listed)
    (known : previous ∈ secrets)
    : Finds platform secrets (addPrevious platform secret byId previous) (listed ++ [previous]) := by
  intro sought sought_known
  have found := finds sought sought_known
  by_cases old : previous ∈ listed
  · have skipped : addPrevious platform secret byId previous = byId := by
      simp [addPrevious, finds previous known, old]
    have same : sought ∈ listed ++ [previous] ↔ sought ∈ listed := by
      simp only [List.mem_append, List.mem_singleton]
      constructor
      · rintro (member | rfl)
        · exact member
        · exact old
      · exact .inl
    rw [skipped, found]
    simp only [same]
  · have added : addPrevious platform secret byId previous
        = byId ++ [((deriveKeys platform previous).keyId, deriveKeys platform previous)] := by
      have other : previous ≠ secret := fun same => old (same ▸ current)
      simp [addPrevious, finds previous known, old, other]
    rw [added, List.lookup_append, found]
    by_cases member : sought ∈ listed
    · simp [member]
    · by_cases same : sought = previous
      · subst same
        simp [old]
      · have apart : (deriveKeys platform sought).keyId ≠ (deriveKeys platform previous).keyId :=
          fun equal => same (separates.keyId sought_known known equal)
        simp [member, same, List.lookup_cons, beq_false_of_ne apart]

/-- A ring finds exactly the keys of its secrets, by induction over the previous ones. -/
theorem ring_get (separates : Separates platform secrets pins) (config : SecretConfig secrets)
    {sought : String} (sought_known : sought ∈ secrets)
    : (config.ring platform).get (deriveKeys platform sought).keyId
      = if sought ∈ config.all then some (deriveKeys platform sought) else none := by
  have current_known := config.known _ List.mem_cons_self
  have first : Finds platform secrets
      [((deriveKeys platform config.secret).keyId, deriveKeys platform config.secret)]
      [config.secret] := by
    intro sought sought_known
    by_cases same : sought = config.secret
    · subst same
      simp
    · have apart : (deriveKeys platform sought).keyId ≠ (deriveKeys platform config.secret).keyId :=
        fun equal => same (separates.keyId sought_known current_known equal)
      simp [same, List.lookup_cons, beq_false_of_ne apart]
  have folded (previous listed : List String) (byId : List (String × DerivedKeys))
      (finds : Finds platform secrets byId listed) (current : config.secret ∈ listed)
      (known : ∀ secret ∈ previous, secret ∈ secrets)
      : Finds platform secrets (previous.foldl (addPrevious platform config.secret) byId)
          (listed ++ previous) := by
    induction previous generalizing listed byId with
    | nil => simpa using finds
    | cons head rest ih =>
        have added := finds.add separates current (known head List.mem_cons_self)
        have later := ih (listed ++ [head]) _ added (List.mem_append_left _ current)
          (fun secret member => known secret (List.mem_cons_of_mem _ member))
        simpa using later
  exact folded config.previousSecrets [config.secret] _ first List.mem_cons_self
    (fun secret member => config.known secret (List.mem_cons_of_mem _ member)) sought sought_known

-----------------------------------------------------------------------------------------
-- Enrolling and verifying
-----------------------------------------------------------------------------------------

variable {σ : Type} {sessions : Semantics SessionCall SessionCall.Reply σ} {start : World σ}
  {config other : SecretConfig secrets} {cost otherCost : PinCost} {pin presented : String}
  {material : JsonObject}

/-- Material of a PIN, made under a secret at some cost. -/
def Enrolled (platform : Platform) (secret : String) (cost : PinCost) (pin : String)
    (material : JsonObject)
    : Prop :=
  ∃ salt hash,
    platform.pbkdf2 (platform.hmac (deriveKeys platform secret).pepperKey pin) salt cost.iterations
      = some hash
    ∧ material = PinMaterial.toJson {
        iterations := cost.iterations
        salt := base64urlEncode platform salt
        hash := base64urlEncode platform hash
        pepperVer := (deriveKeys platform secret).keyId
      }

/-- Enrolling answers with material of the PIN under the current secret, at the given cost. -/
theorem enroll_ensures (documented : Documented platform) (config : SecretConfig secrets)
    (cost : PinCost) (pin : String)
    : (enroll platform cost.iterations pin (config.ring platform)).Ensures (exec platform sessions)
        start (fun answer _ =>
          ∃ material, answer = some material ∧ Enrolled platform config.secret cost pin material) := by
  refine .perform ⟨List.replicate saltBytes 0, start, by simp [HostCall.Answers], rfl⟩ ?_
  intro salt after drawn
  refine .perform ⟨_, after, rfl, rfl⟩ ?_
  intro hash finish derived
  have hashed : hash = platform.pbkdf2
      (platform.hmac (deriveKeys platform config.secret).pepperKey pin) salt cost.iterations :=
    derived.1
  obtain ⟨bytes, derives⟩ := Option.isSome_iff_exists.mp (documented.derives
    (platform.hmac (deriveKeys platform config.secret).pepperKey pin) salt cost)
  rw [derives] at hashed
  subst hashed
  exact .answer ⟨_, rfl, salt, bytes, derives, rfl⟩

/-- The verification accepts the PIN. -/
def Accepts (answer : Option CredentialVerifyResult) : Prop :=
  ∃ upgraded, answer = some (.ok upgraded)

/-- What the verification of enrolled material answers under another configuration. -/
structure Verdict (platform : Platform) (config other : SecretConfig secrets)
    (cost otherCost : PinCost) (pin presented : String) (answer : Option CredentialVerifyResult)
    : Prop where
  accepts : Accepts answer ↔ presented = pin ∧ config.secret ∈ other.all
  upgrades : ∀ upgraded, answer = some (.ok upgraded)
    → (upgraded.isSome ↔ other.secret ≠ config.secret ∨ otherCost ≠ cost)
  upgraded : ∀ material, answer = some (.ok (some material))
    → Enrolled platform other.secret otherCost pin material

/-- A refusal is the right verdict for another PIN, and for a secret that is no longer listed. -/
theorem Verdict.refused (wrong : ¬(presented = pin ∧ config.secret ∈ other.all))
    : Verdict platform config other cost otherCost pin presented (some .refused) := by
  constructor
  case accepts =>
    refine ⟨?_, fun right => absurd right wrong⟩
    rintro ⟨upgraded, impossible⟩
    simp at impossible
  case upgrades => simp
  case upgraded => simp

/-- Material is stale when it names another key or another cost. -/
theorem stale_iff (separates : Separates platform secrets pins) (config other : SecretConfig secrets)
    (cost otherCost : PinCost)
    : (deriveKeys platform config.secret).keyId ≠ (other.ring platform).current.keyId
        ∨ (cost.iterations : ℚ) ≠ otherCost.iterations
      ↔ other.secret ≠ config.secret ∨ otherCost ≠ cost := by
  have keys : (deriveKeys platform config.secret).keyId = (other.ring platform).current.keyId
      ↔ other.secret = config.secret := by
    constructor
    · intro equal
      exact (separates.keyId (config.known _ List.mem_cons_self) (other.known _ List.mem_cons_self)
        equal).symm
    · intro equal
      simp [SecretConfig.ring, buildKeyRing, equal]
  have costs : (cost.iterations : ℚ) = otherCost.iterations ↔ otherCost = cost := by
    rw [Nat.cast_inj]
    constructor
    · intro equal
      cases cost
      cases otherCost
      simp_all
    · rintro rfl
      rfl
  rw [Ne, Ne, keys, costs]

/-- Enrolled material is verified as it should be under every configuration and cost. -/
theorem verify_ensures (separates : Separates platform secrets pins)
    (documented : Documented platform) (pin_mem : pin ∈ pins) (presented_mem : presented ∈ pins)
    (enrolled : Enrolled platform config.secret cost pin material)
    : (pinVerify platform otherCost.iterations presented material (other.ring platform)).Ensures
        (exec platform sessions) start (fun answer _ =>
          Verdict platform config other cost otherCost pin presented answer) := by
  obtain ⟨salt, hash, made, rfl⟩ := enrolled
  have config_known := config.known _ List.mem_cons_self
  have found := ring_get separates other config_known
  simp only [pinVerify, pinMaterial?_toJson]
  by_cases listed : config.secret ∈ other.all
  case neg =>
    rw [if_neg listed] at found
    simp only [found]
    exact .answer (.refused (fun right => listed right.2))
  rw [if_pos listed] at found
  simp only [found, base64urlDecode_encode documented.btoa documented.atob]
  refine .perform ⟨_, start, rfl, rfl⟩ ?_
  intro derived after answered
  have derives : derived = platform.pbkdf2
      (platform.hmac (deriveKeys platform config.secret).pepperKey presented) salt cost.iterations :=
    answered.1
  obtain ⟨actual, hashed⟩ := Option.isSome_iff_exists.mp (documented.derives
    (platform.hmac (deriveKeys platform config.secret).pepperKey presented) salt cost)
  rw [hashed] at derives
  subst derives
  have matching : actual = hash ↔ presented = pin := by
    constructor
    · rintro rfl
      exact separates.hmac _ config_known presented_mem pin_mem
        (separates.pbkdf2 _ config_known _ presented_mem _ pin_mem _ _ _ hashed made)
    · rintro rfl
      exact Option.some.inj (hashed.symm.trans made)
  by_cases same : actual = hash
  case neg =>
    have differs : timingSafeEqualBytes actual hash = false :=
      Bool.eq_false_iff.mpr (fun equal => same (timingSafeEqualBytes_iff.mp equal))
    simp only [differs]
    exact .answer (.refused (fun right => same (matching.mpr right.1)))
  have right := matching.mp same
  have equal : timingSafeEqualBytes actual hash = true := by simpa using same
  simp only [equal]
  by_cases stale : (deriveKeys platform config.secret).keyId ≠ (other.ring platform).current.keyId
      ∨ (cost.iterations : ℚ) ≠ otherCost.iterations
  case neg =>
    rw [if_neg stale]
    refine .answer ⟨⟨fun _ => ⟨right, listed⟩, fun _ => ⟨none, rfl⟩⟩, ?_, ?_⟩
    · rintro upgraded same
      cases same
      simpa using (stale_iff separates config other cost otherCost).not.mp stale
    · simp
  rw [if_pos stale]
  refine .bind (enroll_ensures documented other otherCost presented) ?_
  rintro _ world ⟨material, rfl, enrolled⟩
  refine .answer ⟨⟨fun _ => ⟨right, listed⟩, fun _ => ⟨some material, rfl⟩⟩, ?_, ?_⟩
  · rintro upgraded same
    cases same
    simpa using (stale_iff separates config other cost otherCost).mp stale
  · rintro upgraded same
    cases same
    exact right ▸ enrolled

-----------------------------------------------------------------------------------------
-- Rotations
-----------------------------------------------------------------------------------------

/-- Not the material of a PIN, or with a salt or hash that is not base64url. -/
def Malformed (platform : Platform) (material : JsonObject) : Prop :=
  ∀ stored, pinMaterial? material = some stored →
    base64urlDecode platform stored.salt = none ∨ base64urlDecode platform stored.hash = none

/-- Malformed material is refused, or the platform throws on it, before anything is derived. -/
theorem malformed_refused (malformed : Malformed platform material) (iterations : ℕ)
    (keys : KeyRing) (presented : String)
    : (pinVerify platform iterations presented material keys).Ensures (exec platform sessions) start
        (fun answer _ => ¬Accepts answer) := by
  unfold pinVerify
  cases read : pinMaterial? material with
  | none => exact .answer (by simp [Accepts])
  | some stored =>
      cases known : keys.get stored.pepperVer with
      | none =>
          simp only [known]
          exact .answer (by simp [Accepts])
      | some derived =>
          simp only [known]
          rcases malformed stored read with bad | bad
          · cases base64urlDecode platform stored.hash with
            | none => exact .answer (by simp [Accepts])
            | some hash =>
                simp only [bad]
                exact .answer (by simp [Accepts])
          · simp only [bad]
            exact .answer (by simp [Accepts])

/-- `m` is what enrolling the PIN under this configuration and cost has answered. -/
def Enrolls (platform : Platform) (sessions : Semantics SessionCall SessionCall.Reply σ)
    (config : SecretConfig secrets) (cost : PinCost) (pin : String) (material : JsonObject)
    : Prop :=
  ∃ start finish, Evaluates (exec platform sessions)
    (enroll platform cost.iterations pin (config.ring platform)) start (some material) finish

theorem Enrolls.enrolled (documented : Documented platform)
    (enrolls : Enrolls platform sessions config cost pin material)
    : Enrolled platform config.secret cost pin material := by
  obtain ⟨start, finish, answers⟩ := enrolls
  obtain ⟨_, same, enrolled⟩ := (enroll_ensures documented config cost pin).2 _ _ answers
  cases same
  exact enrolled

/-- Rotations keep PINs working. Enrolled material is accepted for its own PIN alone, under the
configurations that list its secret, and stored anew where the current secret or the cost has
changed; what is stored anew is accepted for that PIN alone wherever its secret is listed, and is
current where nothing has changed since; malformed material is never accepted.
-/
structure RotationKeepsPins (platform : Platform)
    (sessions : Semantics SessionCall SessionCall.Reply σ) (secrets pins : Set String)
    : Prop where
  verified : ∀ pin ∈ pins, ∀ presented ∈ pins, ∀ (first second : SecretConfig secrets)
    (firstCost secondCost : PinCost) material start,
    Enrolls platform sessions first firstCost pin material →
    (pinVerify platform secondCost.iterations presented material (second.ring platform)).Ensures
      (exec platform sessions) start (fun answer _ =>
        (Accepts answer ↔ presented = pin ∧ first.secret ∈ second.all)
        ∧ ∀ upgraded, answer = some (.ok upgraded)
          → (upgraded.isSome ↔ second.secret ≠ first.secret ∨ secondCost ≠ firstCost))
  upgraded : ∀ pin ∈ pins, ∀ presented ∈ pins, ∀ (first second third : SecretConfig secrets)
    (firstCost secondCost thirdCost : PinCost) material renewed before after start,
    Enrolls platform sessions first firstCost pin material →
    Evaluates (exec platform sessions)
      (pinVerify platform secondCost.iterations pin material (second.ring platform)) before
      (some (.ok (some renewed))) after →
    second.secret ∈ third.all →
    (pinVerify platform thirdCost.iterations presented renewed (third.ring platform)).Ensures
      (exec platform sessions) start (fun answer _ =>
        (Accepts answer ↔ presented = pin)
        ∧ (third.secret = second.secret → thirdCost = secondCost →
            ∀ again, answer = some (.ok again) → again = none))
  malformed : ∀ material, Malformed platform material → ∀ presented (config : SecretConfig secrets)
    (cost : PinCost) start,
    (pinVerify platform cost.iterations presented material (config.ring platform)).Ensures
      (exec platform sessions) start (fun answer _ => ¬Accepts answer)

/-- Rotating the secret or changing the cost strands no PIN and lets in no other one. -/
theorem rotation_keepsPins (separates : Separates platform secrets pins)
    (documented : Documented platform)
    : RotationKeepsPins platform sessions secrets pins where
  verified := by
    intro pin pin_mem presented presented_mem first second firstCost secondCost material start enrolls
    refine (verify_ensures separates documented pin_mem presented_mem
      (enrolls.enrolled documented)).mono ?_
    intro answer _ verdict
    exact ⟨verdict.accepts, verdict.upgrades⟩
  upgraded := by
    intro pin pin_mem presented presented_mem first second third firstCost secondCost thirdCost
      material renewed before after start enrolls renews listed
    have renewal : Verdict platform first second firstCost secondCost pin pin _ :=
      (verify_ensures separates documented pin_mem pin_mem (enrolls.enrolled documented)).2 _ _ renews
    refine (verify_ensures separates documented pin_mem presented_mem
      (renewal.upgraded renewed rfl)).mono ?_
    intro answer _ verdict
    refine ⟨?_, ?_⟩
    · rw [verdict.accepts]
      exact and_iff_left listed
    · intro same_secret same_cost upgraded accepted
      have kept := (verdict.upgrades upgraded accepted).not.mpr
        (by rintro (changed | changed)
            · exact changed same_secret
            · exact changed same_cost)
      simpa using kept
  malformed := by
    intro material malformed presented config cost start
    exact malformed_refused malformed cost.iterations (config.ring platform) presented

end

end WorkersAuth.DeviceAuth

namespace WorkersAuth.Sample

open DeviceAuth

def nextSecret : String := "Zt5Xr8Wq1Vm4Bk7Nc0Ls3Hg6Jf9Dp2Ya"

def nextPepperKey : Bytes :=
  bytesOf 32 0x41b1c59d2587176e40f2ce76fcdc5adfbfdc9f2d42fc39e06c28fba7bd41533d

def rotatingHkdfs : List ((String × String) × Bytes) :=
  hkdfs ++ [
    ((nextSecret, "key-id"), bytesOf 8 0x614aefc9f57b17bc),
    ((nextSecret, "pin-pepper"), nextPepperKey)
  ]

/-- HMAC-SHA256 of the PINs under the peppers of both secrets. -/
def rotatingHmacs : List ((Bytes × String) × Bytes) :=
  hmacs ++ [
    ((nextPepperKey, pin),
      bytesOf 32 0xa0b886e6cfe38ae4edd88087e546ffd45b4f7c919e6f8e2ef6f76303b2ae0e56),
    ((nextPepperKey, wrongPin),
      bytesOf 32 0xeb4d67a3c0364b983afb2666fffce6e29204d6a33615e094671cbc689e14bfde)
  ]

/-- The sample platform, with the values of a second secret and base64 for all bytes. -/
def rotatingPlatform : Platform :=
  { platform with
    hmac := fun key message =>
      recorded rotatingHmacs (fun input => longText input.2) (key, message)
    hkdf := fun source info =>
      recorded rotatingHkdfs (fun input => longText input.2) (source, info)
    btoa := fun bytes => String.ofList (Encodings.base64 bytes)
    atob := fun text => Encodings.decodeBase64 text.toList }

def rotatingSecrets : Set String := {secret, nextSecret}

theorem rotating_documented : Documented rotatingPlatform where
  btoa := fun _ => rfl
  atob := fun bytes => by
    simp only [rotatingPlatform, String.toList_ofList, Encodings.decodeBase64_base64]
  derives := fun _ _ _ => rfl

/-- The two key ids differ, and so do the recorded values of different PINs. -/
theorem rotating_separates : Separates rotatingPlatform rotatingSecrets Set.univ where
  keyId := by
    have apart : (deriveKeys rotatingPlatform secret).keyId
        ≠ (deriveKeys rotatingPlatform nextSecret).keyId := by decide +kernel
    rintro first (rfl | rfl) second (rfl | rfl) same
    · rfl
    · exact absurd same apart
    · exact absurd same.symm apart
    · rfl
  hmac := by
    intro source _ first _ second _ same
    have long (input : Bytes × String) : 32 < (longText input.2).length := by
      simp only [longText, List.length_append, List.length_replicate]
      omega
    rcases recorded_eq (by decide +kernel) (by decide +kernel) long same with equal | equal
    · exact congrArg Prod.snd equal
    · exact longText_injective equal
  pbkdf2 := by
    intro source _ first _ second _ salt iterations hash derives same
    have equal := Option.some.inj (derives.trans same.symm)
    have long (input : Bytes × Bytes × ℚ) : 32 < (List.replicate 33 0 ++ input.1).length := by
      simp only [List.length_append, List.length_replicate]
      omega
    rcases recorded_eq (by decide +kernel) (by decide +kernel) long equal with equal | equal
    · exact congrArg Prod.fst equal
    · exact List.append_cancel_left equal

theorem rotation_keepsPins_sample
    : RotationKeepsPins rotatingPlatform memorySessions rotatingSecrets Set.univ :=
  rotation_keepsPins rotating_separates rotating_documented

end WorkersAuth.Sample

import WorkersAuth.Atomic.Journal
import WorkersAuth.DeviceAuth.Deployment
import WorkersAuth.DeviceAuth.Footprint
import WorkersAuth.DeviceAuth.Frame
import WorkersAuth.Tokens.SingleUse

/-! Email codes are used once.
The code of an address is a token in a place of its own: storing one replaces what is there,
and accepting one is a deletion that names the hash that was compared. Each accepted code is
traced back, through the calls of its own request, to the attempt that was reserved for it
and to the request that issued it.
-/

namespace WorkersAuth

open Atomic Tokens DeviceAuth

-----------------------------------------------------------------------------------------
-- The code of an address as a token
-----------------------------------------------------------------------------------------

/-- A stored code and the thread that stored it. -/
structure Issue where
  thread : Nat
  record : EmailCodeRecord

/-- The call stores a code for the address. -/
def stores (email : String) (entry : Entry Op Op.Reply) : Bool :=
  match entry.call with
  | ⟨.store (.putEmailCode record), _⟩ => record.email = email
  | _ => false

/-- The call consumes the code of the address: the verification gets past it. -/
def accepts (email : String) (entry : Entry Op Op.Reply) : Bool :=
  match entry.call with
  | ⟨.store (.consumeEmailCode address _), consumed⟩ => address = email && consumed
  | _ => false

/-- What a call means for the code of an address. -/
def codeEvent (email : String) (entry : Entry Op Op.Reply) : Option (TokenEvent Issue) :=
  match entry.call with
  | ⟨.store (.putEmailCode record), _⟩ =>
      if record.email = email then some (.issue ⟨entry.thread, record⟩) else none
  | ⟨.store (.consumeEmailCode address _), consumed⟩ =>
      if address = email ∧ consumed then some .take else none
  | _ => none

/-- What the log says happened to the code of an address, oldest first. -/
def codeEvents (email : String) (log : List (Entry Op Op.Reply)) : List (TokenEvent Issue) :=
  log.filterMap (codeEvent email)

/-- The code an address has: the last one stored for it, unless it was consumed since. -/
def currentCode (email : String) (log : List (Entry Op Op.Reply)) : Option Issue :=
  current (codeEvents email log)

variable {email : String} {entry : Entry Op Op.Reply} {log : List (Entry Op Op.Reply)}

/-- Issuing is storing for this address, by cases on the call. -/
theorem codeEvent_issue {issue : Issue}
    : codeEvent email entry = some (.issue issue)
      ↔ entry = ⟨issue.thread, .store (.putEmailCode issue.record), ()⟩
        ∧ issue.record.email = email := by
  obtain ⟨thread, op, reply⟩ := entry
  obtain ⟨issuer, record⟩ := issue
  rcases op with call | call | call
  · cases call <;> simp [codeEvent]
    case putEmailCode stored => grind
  · simp [codeEvent]
  · simp [codeEvent]

/-- Taking is accepting a code of this address, by cases on the call. -/
theorem codeEvent_take : codeEvent email entry = some .take ↔ accepts email entry := by
  obtain ⟨thread, op, reply⟩ := entry
  rcases op with call | call | call
  · cases call <;> simp [codeEvent, accepts]
  · simp [codeEvent, accepts]
  · simp [codeEvent, accepts]

/-- One more call is its event for the code, if it is one. -/
theorem codeEvents_append (email : String) (log : List (Entry Op Op.Reply))
    (entry : Entry Op Op.Reply)
    : codeEvents email (log ++ [entry]) = codeEvents email log ++ (codeEvent email entry).toList := by
  simp only [codeEvents, List.filterMap_append, List.filterMap_cons, List.filterMap_nil]
  cases codeEvent email entry <;> rfl

/-- The current code was stored for the address by a call in the log. -/
theorem currentCode_stored {issue : Issue} (there : currentCode email log = some issue)
    : ⟨issue.thread, .store (.putEmailCode issue.record), ()⟩ ∈ log ∧ issue.record.email = email := by
  simp only [currentCode, current] at there
  split at there
  · next last =>
      cases there
      obtain ⟨entry, logged, means⟩ := List.mem_filterMap.mp (List.mem_of_getLast? last)
      obtain ⟨rfl, same⟩ := codeEvent_issue.mp means
      exact ⟨logged, same⟩
  · contradiction

/-- The accepted codes of an address are its tokens taken. -/
theorem countP_accepts (email : String) (log : List (Entry Op Op.Reply))
    : log.countP (accepts email) = (codeEvents email log).countP TokenEvent.isTake := by
  rw [codeEvents, List.countP_filterMap]
  refine List.countP_congr (fun entry _ => ?_)
  rw [← codeEvent_take]
  cases codeEvent email entry with
  | none => simp
  | some event => cases event <;> simp [TokenEvent.isTake]

/-- The codes stored for an address are its tokens issued. -/
theorem countP_stores (email : String) (log : List (Entry Op Op.Reply))
    : log.countP (stores email) = (codeEvents email log).countP TokenEvent.isIssue := by
  rw [codeEvents, List.countP_filterMap]
  refine List.countP_congr (fun entry _ => ?_)
  obtain ⟨thread, op, reply⟩ := entry
  rcases op with call | call | call
  · cases call with
    | putEmailCode record =>
        by_cases same : record.email = email <;> simp [stores, codeEvent, same, TokenEvent.isIssue]
    | consumeEmailCode address codeHash =>
        by_cases same : address = email ∧ reply = true <;>
          simp [stores, codeEvent, same, TokenEvent.isIssue]
    | _ => simp [stores, codeEvent]
  · simp [stores, codeEvent]
  · simp [stores, codeEvent]

/-- Calls that do not write codes. -/
def Op.SparesCodes : Op → Prop
  | .store call => ¬call.writes .codes
  | _ => True

-----------------------------------------------------------------------------------------
-- One call
-----------------------------------------------------------------------------------------

/-- What a verification needs of a stored code. -/
structure StoredCode where
  codeHash : String
  keyId : String
  expiresAt : Millis

def DeviceAuth.EmailCodeRecord.stored (record : EmailCodeRecord) : StoredCode where
  codeHash := record.codeHash
  keyId := record.keyId
  expiresAt := record.expiresAt

/-- The code stored for an address. -/
def DeviceAuth.Database.storedCode (db : Database) (email : String) : Option StoredCode :=
  (db.codes.find email).map (fun row => row.stored)

section Statements

variable (db : Database) (email other codeHash : String)

/-- Storing a code replaces the one of its address and no other. -/
theorem storedCode_putEmailCode (record : EmailCodeRecord)
    : (db.putEmailCode record).storedCode other
      = if other = record.email then some record.stored else db.storedCode other := by
  simp only [Database.storedCode, Database.putEmailCode]
  rw [Tables.Table.find_upsert]
  by_cases same : other = record.email
  · cases db.codes.find record.email <;> simp [same, Database.resend, EmailCodeRecord.stored]
  · simp [same]

/-- Reserving an attempt answers the stored code, unexpired, and leaves every code as it is. -/
theorem storedCode_reserveEmailCodeAttempt (now : Millis) (max : Nat)
    : let result := db.reserveEmailCodeAttempt email now max
      (∀ reserved ∈ result.1, ∃ code, db.storedCode email = some code
          ∧ reserved.codeHash = code.codeHash ∧ reserved.keyId = code.keyId ∧ now < code.expiresAt)
      ∧ result.2.storedCode other = db.storedCode other := by
  simp only [Database.storedCode, Database.reserveEmailCodeAttempt_fst,
    Database.find_reserveEmailCodeAttempt]
  constructor
  · intro reserved member
    simp only [Option.mem_def, Option.map_eq_some_iff, Option.filter_eq_some_iff] at member
    obtain ⟨row, ⟨found, applies⟩, rfl⟩ := member
    simp only [Bool.and_eq_true, decide_eq_true_eq] at applies
    exact ⟨_, congrArg _ found, rfl, rfl, applies.2⟩
  · split
    · rw [Option.map_map]
      congr 1
      funext row
      simp only [Function.comp_apply]
      split <;> rfl
    · rfl

/-- Consuming a code removes exactly the one that was compared, if it is still there. -/
theorem storedCode_consumeEmailCode
    : let result := db.consumeEmailCode email codeHash
      (result.1 → ∃ code, db.storedCode email = some code ∧ code.codeHash = codeHash)
      ∧ result.2.storedCode other
        = if other = email ∧ result.1 then none else db.storedCode other := by
  simp only [Database.storedCode, Database.consumeEmailCode_fst, Database.find_consumeEmailCode]
  by_cases same : other = email
  · subst same
    cases found : db.codes.find other with
    | none => simp
    | some row =>
        by_cases hash : row.codeHash = codeHash <;>
          simp [Option.filter, hash, EmailCodeRecord.stored]
  · cases found : db.codes.find email with
    | none => simp [same]
    | some row =>
        by_cases hash : row.codeHash = codeHash <;>
          simp [Option.filter, hash, same, EmailCodeRecord.stored]

end Statements

variable {σ : Type} {platform : Platform} {sessions : Semantics SessionCall SessionCall.Reply σ}
  {world after : World σ}

/-- Every call is the event it means for the code of an address, or leaves it alone; by cases
on the call.
-/
theorem exec_code {op : Op} {reply : op.Reply} (executes : exec platform sessions op world reply after)
    (email : String) (thread : Nat)
    : after.db.storedCode email
      = match codeEvent email ⟨thread, op, reply⟩ with
        | none => world.db.storedCode email
        | some event => (current [event]).map (fun issue => issue.record.stored) := by
  cases op with
  | session call => exact congrArg (fun db : Database => db.storedCode email) executes.2
  | host call => exact congrArg (fun world : World σ => world.db.storedCode email) executes.2
  | store call =>
      have ran := executes.1
      have untouched (frame : ¬call.writes .codes)
          : after.db.storedCode email = world.db.storedCode email := by
        rw [Database.storedCode, StoreCall.codes_eq ran frame, Database.storedCode]
      cases call with
      | putEmailCode record =>
          have after_eq : world.db.putEmailCode record = after.db :=
            congrArg Prod.snd (Option.some.inj ran)
          rw [← after_eq, storedCode_putEmailCode]
          by_cases same : record.email = email
          · simp [codeEvent, same, current]
          · simp [codeEvent, same, Ne.symm same]
      | reserveEmailCodeAttempt address now max =>
          have kept := (storedCode_reserveEmailCodeAttempt world.db address email now max).2
          rw [show world.db.reserveEmailCodeAttempt address now max = (reply, after.db) from
            Option.some.inj ran] at kept
          exact kept
      | consumeEmailCode address codeHash =>
          have taken := (storedCode_consumeEmailCode world.db address email codeHash).2
          rw [show world.db.consumeEmailCode address codeHash = (reply, after.db) from
            Option.some.inj ran] at taken
          rw [taken]
          by_cases same : address = email
          · cases reply <;> simp [codeEvent, same, current]
          · simp [codeEvent, same, Ne.symm same]
      | _ => exact untouched not_false

/-- A code is accepted only while one is stored, the one named. -/
theorem exec_accepts {op : Op} {reply : op.Reply} (executes : exec platform sessions op world reply after)
    {email : String} {thread : Nat} (accepted : accepts email ⟨thread, op, reply⟩)
    : ∃ codeHash code, op = .store (.consumeEmailCode email codeHash)
      ∧ world.db.storedCode email = some code ∧ code.codeHash = codeHash := by
  rcases op with call | call | call
  · cases call with
    | consumeEmailCode address codeHash =>
        simp only [accepts, Bool.and_eq_true, decide_eq_true_eq] at accepted
        obtain ⟨rfl, consumed⟩ := accepted
        have there := (storedCode_consumeEmailCode world.db address address codeHash).1
        rw [show world.db.consumeEmailCode address codeHash = (reply, after.db) from
          Option.some.inj executes.1] at there
        obtain ⟨code, found, same⟩ := there consumed
        exact ⟨codeHash, code, rfl, found, same⟩
    | _ => simp [accepts] at accepted
  · simp [accepts] at accepted
  · simp [accepts] at accepted

namespace DeviceAuth

variable {cfg : Config} {pool : Pool Op Op.Reply (World σ) Request Response}

/-- In every reachable state, the code stored for an address is the current one of the log,
and nothing was ever accepted without one; by induction on the run.
-/
theorem reachable_codes (fresh : world.db.storedCode email = none)
    (reach : (deviceAuth platform cfg sessions).Reachable world pool)
    : pool.world.db.storedCode email
        = (currentCode email pool.log).map (fun issue => issue.record.stored)
      ∧ Honest (codeEvents email pool.log) := by
  induction reach with
  | refl => exact ⟨fresh, honest_nil⟩
  | @tail before after _ step ih =>
      cases step with
      | arrive request => exact ih
      | @perform entry _ performs =>
          have moved := exec_code performs.executes email entry.thread
          rw [performs.log_eq, currentCode, codeEvents_append, moved]
          cases means : codeEvent email entry with
          | none =>
              simp only [Option.toList_none, List.append_nil]
              exact ih
          | some event =>
              simp only [Option.toList_some]
              refine ⟨by simp [current], ih.2.snoc ?_⟩
              rintro rfl
              obtain ⟨_, code, _, found, _⟩ := exec_accepts performs.executes (codeEvent_take.mp means)
              rw [ih.1, Option.map_eq_some_iff] at found
              obtain ⟨issue, there, _⟩ := found
              exact Option.isSome_iff_exists.mpr ⟨issue, there⟩

-----------------------------------------------------------------------------------------
-- The protocol of a code
-----------------------------------------------------------------------------------------

variable (platform cfg) in
/-- What a request has done before it touches a code. A code is stored as the hash of digits
just drawn; an attempt is reserved for the address of the request at a reading of its clock;
and a code is consumed by the hash its attempt was answered with, once that is the hash of
the digits presented.
-/
def codeProtocol (journal : Journal Op Op.Reply Request) : Op → Prop
  | .store (.putEmailCode record) =>
      ∃ email digits sentAt,
        ⟨.host (.generateEmailCode cfg.codeDigits), digits⟩ ∈ journal.history
        ∧ record = newEmailCode platform cfg email digits sentAt
  | .store (.reserveEmailCodeAttempt email now _) =>
      ∃ req, journal.request = .emailVerify req
        ∧ readEmail cfg (req.field "email") = some email
        ∧ ⟨.host .clock, now⟩ ∈ journal.history
  | .store (.consumeEmailCode email codeHash) =>
      ∃ req code now max reserved derived,
        journal.request = .emailVerify req
        ∧ readEmail cfg (req.field "email") = some email
        ∧ readCode cfg (req.field "code") = some code
        ∧ ⟨.store (.reserveEmailCodeAttempt email now max), some reserved⟩ ∈ journal.history
        ∧ reserved.codeHash = codeHash
        ∧ (cfg.keys platform).get reserved.keyId = some derived
        ∧ codeMatches platform derived email code codeHash
  | _ => True

/-- Calls that spare the codes are always allowed, by cases on the call. -/
theorem codeProtocol_spares (journal : Journal Op Op.Reply Request) {op : Op}
    (spares : op.SparesCodes)
    : codeProtocol platform cfg journal op := by
  rcases op with call | call | call
  · cases call <;> first | trivial | exact absurd trivial spares
  · trivial
  · trivial

/-- The monitor of the protocol. -/
abbrev codeMonitor (platform : Platform) (cfg : Config)
    : Monitor Op Op.Reply (Journal Op Op.Reply Request) :=
  .journal (codeProtocol platform cfg) (fun _ _ => True)

/-- The requests for codes and those that check one spare the codes up to the decisive call,
and so do all other routes throughout; by cases on the route and the call.
-/
theorem spares_calls (cfg : Config) {op : Op}
    (quiet : quotaCalls op ∨ preludeCalls true op ∨ verifiedCalls op ∨ setPinCalls op
      ∨ loginCalls cfg op ∨ manageCalls op)
    : op.SparesCodes := by
  rcases op with call | call | call
  · rcases quiet with quiet | quiet | quiet | quiet | quiet | quiet <;> cases call <;>
      first | exact not_false | exact quiet.elim
  · trivial
  · trivial

/-- A request that issues a code has drawn its digits. -/
theorem emailStart_codes (req : HttpRequest)
    : (emailStart platform cfg req).Obeys (codeMonitor platform cfg) (fun _ _ => True)
        ⟨.emailStart req, []⟩ := by
  refine emailStart_obeys platform cfg (fun _ => True) req ?_ trivial
    (fun _ _ _ _ => trivial) (fun journal email now _ _ => ?_)
  · intro journal op _ quota
    exact ⟨codeProtocol_spares journal (spares_calls cfg (.inl quota)), fun _ => trivial⟩
  · have knows : journal.Knows journal.request [] := ⟨rfl, by simp⟩
    refine .recall knows trivial (fun digits drawn _ knows => ?_)
    refine .recall knows ⟨email, digits, now, knows.recorded _ (by simp), rfl⟩ (fun _ sent _ knows => ?_)
    exact .recall knows trivial (fun _ _ _ knows => .recall knows trivial (fun _ _ _ _ => trivial))

/-- A refused code is left as it is. -/
theorem invalid_codes {email reason : String} {now : Millis} (journal : Journal Op Op.Reply Request)
    : (invalid platform cfg email now reason).Obeys (codeMonitor platform cfg) (fun _ _ => True)
        journal := by
  have spares : (invalid platform cfg email now reason).Within Op.SparesCodes :=
    .perform trivial (fun _ => (checked_within cfg _ (fun _ => not_false)).bind (fun _ => trivial))
  exact spares.obeys_free (fun journal _ => codeProtocol_spares journal)

/-- From the reserved slot on: the attempt, the comparison with its hash, and the deletion
that names this hash.
-/
theorem checkCode_codes {req : HttpRequest} {email code : String} {now : Millis} {budget : Budget}
    {slot : WindowCount} {trustDevice : Bool} {label : Option String}
    {journal : Journal Op Op.Reply Request}
    (email_eq : readEmail cfg (req.field "email") = some email)
    (code_eq : readCode cfg (req.field "code") = some code)
    (knows : journal.Knows (.emailVerify req) [⟨.host .clock, now⟩])
    : (checkCode platform cfg req email code now budget slot trustDevice label).Obeys
        (codeMonitor platform cfg) (fun _ _ => True) journal := by
  refine .recall knows ⟨req, knows.request_eq, email_eq, knows.recorded _ (by simp)⟩
    (fun reserved journal _ knows => ?_)
  cases reserved with
  | none =>
      exact .recall knows trivial (fun _ _ _ knows => .recall knows trivial (fun _ _ _ _ => trivial))
  | some reserved =>
      simp only
      split
      · exact invalid_codes journal
      next derived known =>
      split
      · exact invalid_codes journal
      next matching =>
      have consumable : codeProtocol platform cfg journal
          (.store (.consumeEmailCode email reserved.codeHash)) :=
        ⟨req, code, now, cfg.codeMaxAttempts, reserved, derived, knows.request_eq, email_eq, code_eq,
          knows.recorded _ (by simp), rfl, known, by simpa using matching⟩
      refine .recall knows consumable (fun consumed journal _ knows => ?_)
      split
      · exact invalid_codes journal
      refine .recall knows trivial (fun resolved journal _ knows => ?_)
      split
      · exact invalid_codes journal
      refine .recall knows trivial (fun _ journal _ knows => ?_)
      refine (checked_within cfg Op.SparesCodes (fun _ => not_false)).obeys_journal
        (fun journal _ _ => codeProtocol_spares journal) knows (fun _ journal _ => ?_)
      exact (emailVerified_within ..).obeys_free (fun journal _ verified =>
        codeProtocol_spares journal (spares_calls cfg (.inr (.inr (.inl verified)))))

/-- A verification reserves the attempt for its own address at its own clock reading. -/
theorem emailVerify_codes (req : HttpRequest)
    : (emailVerify platform cfg req).Obeys (codeMonitor platform cfg) (fun _ _ => True)
        ⟨.emailVerify req, []⟩ := by
  have skips : Skips (codeMonitor platform cfg) true (Journal.Knows (.emailVerify req) [])
      (fun now => Journal.Knows (.emailVerify req) [⟨.host .clock, now⟩]) := by
    refine ⟨fun journal op knows quiet => ⟨?_, fun reply => Journal.Knows.write knows op reply⟩,
      fun journal now knows => Journal.Knows.add knows (.host .clock) now,
      fun journal op now _ knows _ reply => Journal.Knows.write knows op reply⟩
    exact codeProtocol_spares journal (spares_calls cfg (.inr (.inl quiet)))
  refine emailVerify_obeys platform cfg req skips ⟨rfl, by simp⟩ (fun _ _ _ _ => trivial)
    (fun journal email code now device _ knows email_eq code_eq => ?_)
  refine .perform trivial (fun slot _ => ?_)
  have knows := Journal.Knows.write knows (.store (.reserveRateLimit _ _ _ _)) slot
  cases slot with
  | none =>
      exact .recall knows trivial (fun _ _ _ knows => .recall knows trivial (fun _ _ _ _ => trivial))
  | some slot => exact checkCode_codes email_eq code_eq knows

/-- Every request keeps to the protocol of the codes, by cases on the route. -/
theorem handle_codes (request : Request)
    : (handle platform cfg request).Obeys (codeMonitor platform cfg) (fun _ _ => True)
        ⟨request, []⟩ := by
  have within := handle_within platform cfg request
  cases request
  case emailStart req => exact emailStart_codes req
  case emailVerify req => exact emailVerify_codes req
  all_goals exact within.obeys_free (fun journal _ allowed =>
    codeProtocol_spares journal (spares_calls cfg (by simp_all [Request.calls])))

-----------------------------------------------------------------------------------------
-- What an accepted code rests on
-----------------------------------------------------------------------------------------

theorem codeMonitor_faithful
    : (deviceAuth platform cfg sessions).Faithful (codeMonitor platform cfg) :=
  fun _ _ _ _ _ => trivial

variable (platform cfg) in
/-- The code was issued for the address: its thread drew these digits and stored their hash. -/
structure Issued (log : List (Entry Op Op.Reply)) (issue : Issue) (email digits : String) : Prop where
  drawn : ⟨issue.thread, .host (.generateEmailCode cfg.codeDigits), digits⟩ ∈ log
  stored : ∃ sentAt, issue.record = newEmailCode platform cfg email digits sentAt

/-- Every current code was issued for its address. -/
theorem reachable_issued (reach : (deviceAuth platform cfg sessions).Reachable world pool)
    {issue : Issue} (there : currentCode email pool.log = some issue)
    : ∃ digits, Issued platform cfg pool.log issue email digits := by
  obtain ⟨logged, same⟩ := currentCode_stored there
  obtain ⟨before, after, split⟩ := List.append_of_mem logged
  obtain ⟨request, earlier, following, made⟩ := reach.made codeMonitor_faithful handle_codes split
  obtain ⟨address, digits, sentAt, drawn, record_eq⟩ := made.allowed
  obtain rfl : address = email := by rw [← same, record_eq]; rfl
  refine ⟨digits, ?_, sentAt, record_eq⟩
  rw [Service.mem_history, made.log_eq] at drawn
  rw [split]
  exact List.mem_append_left _ drawn

/-- A code is issued under the current key. -/
theorem Issued.key_eq {issue : Issue} {digits : String} {derived : DerivedKeys}
    (issued : Issued platform cfg log issue email digits)
    (known : (cfg.keys platform).get issue.record.keyId = some derived)
    : derived = (cfg.keys platform).current := by
  obtain ⟨sentAt, record_eq⟩ := issued.stored
  rw [record_eq] at known
  exact Option.some.inj (known.symm.trans (buildKeyRing_get_current ..))

/-- Digits whose hash is the stored one are the digits issued. -/
theorem Issued.digits_eq (injective : ∀ key, Function.Injective (platform.hmac key))
    {issue : Issue} {digits code : String} (issued : Issued platform cfg log issue email digits)
    (matching : codeMatches platform (cfg.keys platform).current email code issue.record.codeHash)
    : digits = code := by
  obtain ⟨sentAt, record_eq⟩ := issued.stored
  rw [record_eq, codeMatches, timingSafeEqual_iff] at matching
  have messages := injective _ (toHex_injective matching)
  rw [String.append_right_inj] at messages
  exact messages.symm

variable (platform cfg) in
/-- The code a verification presented was the current one of its own address, unexpired at
the reading of the request's clock, when its attempt was reserved, and the current code when
it was consumed was the same digits.
-/
def PresentedCurrent (pool : Pool Op Op.Reply (World σ) Request Response)
    (before : List (Entry Op Op.Reply)) (thread : Nat) (email : String)
    : Prop :=
  ∃ req code now max reserved first middle presented consumed,
    pool.requestOf thread = some (.emailVerify req)
    ∧ readEmail cfg (req.field "email") = some email
    ∧ readCode cfg (req.field "code") = some code
    ∧ before
      = first ++ ⟨thread, .store (.reserveEmailCodeAttempt email now max), some reserved⟩ :: middle
    ∧ ⟨thread, .host .clock, now⟩ ∈ first
    ∧ currentCode email first = some presented
    ∧ Issued platform cfg first presented email code
    ∧ now < presented.record.expiresAt
    ∧ currentCode email before = some consumed
    ∧ Issued platform cfg before consumed email code

/-- Email codes, in every run. Verifications get past the consumption for an address no more
often than codes are stored for it, and between two of them a code is stored; and each of
them presented the digits of the code that was current for its address.
-/
theorem emailCodes_singleUse (injective : ∀ key, Function.Injective (platform.hmac key))
    (fresh : world.db.codes.rows = [])
    (reach : (deviceAuth platform cfg sessions).Reachable world pool) (email : String)
    : pool.log.countP (accepts email) ≤ pool.log.countP (stores email)
      ∧ (∀ earlier first between second later,
          pool.log = earlier ++ first :: between ++ second :: later
          → accepts email first → accepts email second → ∃ entry ∈ between, stores email entry)
      ∧ ∀ before entry after,
          pool.log = before ++ entry :: after
          → accepts email entry
          → PresentedCurrent platform cfg pool before entry.thread email := by
  have fresh : world.db.storedCode email = none := by
    rw [Database.storedCode, Tables.Table.find, fresh]
    rfl
  have honest := (reachable_codes fresh reach).2
  refine ⟨?_, ?_, ?_⟩
  · rw [countP_accepts, countP_stores]
    exact (Nat.le_add_right ..).trans honest.takes_le
  · intro earlier first between second later split takes again
    have first_eq := codeEvent_take.mpr takes
    have second_eq := codeEvent_take.mpr again
    rw [split] at honest
    simp only [codeEvents, List.filterMap_append, List.filterMap_cons, first_eq, second_eq] at honest
    obtain ⟨issue, issued⟩ := honest.issue_between
    obtain ⟨entry, inside, means⟩ := List.mem_filterMap.mp issued
    obtain ⟨rfl, same⟩ := codeEvent_issue.mp means
    exact ⟨_, inside, by simpa [stores] using same⟩
  · intro before entry after split accepted
    obtain ⟨request, atConsume, following, made⟩ :=
      reach.made codeMonitor_faithful handle_codes split
    obtain ⟨codeHash, there, op_eq, found, hash_eq⟩ := exec_accepts made.performs.executes accepted
    have allowed := made.allowed
    rw [op_eq] at allowed
    obtain ⟨req, code, now, max, reserved, derived, logs, email_eq, code_eq, recorded, same, known,
      matching⟩ := allowed
    obtain ⟨first, middle, at_reserve⟩ := made.split recorded
    -- The code at the reservation.
    obtain ⟨_, atReserve, _, reserving⟩ :=
      made.reachable.made codeMonitor_faithful handle_codes (made.log_eq.trans at_reserve)
    obtain ⟨_, _, _, clock⟩ := reserving.allowed
    rw [Service.mem_history, reserving.log_eq] at clock
    have answered := (storedCode_reserveEmailCodeAttempt atReserve.world.db email email now max).1
    rw [show atReserve.world.db.reserveEmailCodeAttempt email now max = (some reserved, _) from
      Option.some.inj reserving.performs.executes.1] at answered
    obtain ⟨code_there, reserved_found, reserved_hash, reserved_key, unexpired⟩ :=
      answered reserved rfl
    rw [(reachable_codes fresh reserving.reachable).1, Option.map_eq_some_iff] at reserved_found
    obtain ⟨presented, current_presented, rfl⟩ := reserved_found
    obtain ⟨digits, presented_issued⟩ := reachable_issued reserving.reachable current_presented
    rw [reserving.log_eq] at current_presented presented_issued
    -- The code at the consumption, under the same hash.
    rw [(reachable_codes fresh made.reachable).1, Option.map_eq_some_iff] at found
    obtain ⟨consumed, current_consumed, rfl⟩ := found
    obtain ⟨digits', consumed_issued⟩ := reachable_issued made.reachable current_consumed
    rw [made.log_eq] at current_consumed consumed_issued
    obtain rfl := presented_issued.key_eq (reserved_key ▸ known)
    have presented_eq : _ = code := presented_issued.digits_eq injective
      (by rwa [← same, reserved_hash] at matching)
    have consumed_eq : _ = code := consumed_issued.digits_eq injective
      (by rwa [← hash_eq] at matching)
    subst presented_eq consumed_eq
    exact ⟨req, _, now, max, reserved, first, middle, presented, consumed, logs ▸ made.serves,
      email_eq, code_eq, at_reserve, clock, current_presented, presented_issued, unexpired,
      current_consumed, consumed_issued⟩

open Sample in
/-- A code is sent and verified: one was stored and one was accepted. -/
theorem emailCodes_singleUse_played
    : ∃ state, service.Reachable empty state
        ∧ state.log.countP (accepts "user42@example.com") = 1
        ∧ state.log.countP (accepts "user42@example.com")
          ≤ state.log.countP (stores "user42@example.com")
        ∧ ∃ before entry after, state.log = before ++ entry :: after
          ∧ accepts "user42@example.com" entry
          ∧ PresentedCurrent Sample.platform config state before entry.thread "user42@example.com" := by
  obtain ⟨state, reach, once⟩ := exists_played empty
    (issued ++ .arrive (verifyRequest "482915") :: calls 1000 1 15)
    (fun state => state.log.countP (accepts "user42@example.com") = 1) (by decide +kernel)
  have once := of_decide_eq_true once
  have singleUse := emailCodes_singleUse platform_hmac_injective rfl reach "user42@example.com"
  obtain ⟨entry, logged, accepted⟩ := List.countP_pos_iff.mp (once ▸ Nat.one_pos)
  obtain ⟨before, after, split⟩ := List.append_of_mem logged
  exact ⟨state, reach, once, singleUse.1, before, entry, after, split, accepted,
    singleUse.2.2 before entry after split accepted⟩

end DeviceAuth

end WorkersAuth

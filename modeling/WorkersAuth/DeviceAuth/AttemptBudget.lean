import WorkersAuth.Counters.Allowance
import WorkersAuth.DeviceAuth.Postgres

/-! The attempts on the codes of an address, across resends.
The row of an address is an allowance: sending a code asks for a new one, and a reserved
attempt uses it. So resends, however many, neither refill it early nor move its deadline.
-/

namespace WorkersAuth.DeviceAuth

open Counters

-----------------------------------------------------------------------------------------
-- Statements on codes over either database
-----------------------------------------------------------------------------------------

inductive Dialect where
  | d1
  | postgres

def Dialect.putEmailCode : Dialect → Database → EmailCodeRecord → Database
  | .d1, db, record => db.putEmailCode record
  | .postgres, db, record => Postgres.putEmailCode db record

def Dialect.reserveEmailCodeAttempt
    : Dialect → Database → String → Millis → Nat → Option ReservedEmailCode × Database
  | .d1, db, email, now, maxAttempts => db.reserveEmailCodeAttempt email now maxAttempts
  | .postgres, db, email, now, maxAttempts =>
      Postgres.reserveEmailCodeAttempt db email now maxAttempts

/-- One statement that sends a code or reserves an attempt, for any address. -/
inductive CodeStatement where
  | put (record : EmailCodeRecord)
  | reserve (email : String) (now : Millis)

/-- A statement, the tables it found and, for a reservation, what it answered. -/
structure CodeEntry where
  before : Database
  statement : CodeStatement
  reserved : Option ReservedEmailCode

def CodeStatement.run (dialect : Dialect) (maxAttempts : Nat) (db : Database)
    : CodeStatement → Option ReservedEmailCode × Database
  | .put record => (none, dialect.putEmailCode db record)
  | .reserve email now => dialect.reserveEmailCodeAttempt db email now maxAttempts

/-- The statements executed one after the other. -/
def codeLog (dialect : Dialect) (maxAttempts : Nat) : Database → List CodeStatement → List CodeEntry
  | _, [] => []
  | db, statement :: rest =>
      let (reserved, after) := statement.run dialect maxAttempts db
      ⟨db, statement, reserved⟩ :: codeLog dialect maxAttempts after rest

/-- The entry stores this record for the address and sets its attempts to zero: there was no
row yet, or its deadline had passed.
-/
structure Refills (email : String) (record : EmailCodeRecord) (entry : CodeEntry) : Prop where
  puts : entry.statement = .put record
  address : record.email = email
  lapsed : ∀ row ∈ entry.before.codes.find email, row.attemptsResetAt ≤ record.createdAt

/-- The entry reserves an attempt on the code of the address. -/
def reserves (email : String) (entry : CodeEntry) : Bool :=
  match entry.statement with
  | .put _ => false
  | .reserve address _ => address = email && entry.reserved.isSome

-----------------------------------------------------------------------------------------
-- The row of an address as an allowance
-----------------------------------------------------------------------------------------

/-- The allowance an address has. -/
def Database.allowance (db : Database) (email : String) : Option (Allowance Millis) :=
  (db.codes.find email).map (fun row => ⟨row.attempts, row.attemptsResetAt⟩)

/-- What an entry means for the allowance of an address. -/
def allowanceEvent (email : String) (entry : CodeEntry) : Option (AllowanceEvent Millis) :=
  match entry.statement with
  | .put record =>
      if record.email = email then
        if (entry.before.codes.find email).all (fun row => row.attemptsResetAt ≤ record.createdAt) then
          some (.refill record.createdAt)
        else
          some (.carry record.createdAt)
      else
        none
  | .reserve address _ =>
      if address = email then some (if entry.reserved.isSome then .grant else .refuse) else none

variable {dialect : Dialect} {maxAttempts : Nat} {ttl : Millis} {email : String} {db : Database}

theorem Dialect.putEmailCode_eq (record : EmailCodeRecord)
    : dialect.putEmailCode db record = db.putEmailCode record := by
  cases dialect with
  | d1 => rfl
  | postgres => exact Postgres.putEmailCode_eq db record

theorem Dialect.reserveEmailCodeAttempt_eq (now : Millis)
    : dialect.reserveEmailCodeAttempt db email now maxAttempts
      = db.reserveEmailCodeAttempt email now maxAttempts := by
  cases dialect with
  | d1 => rfl
  | postgres => exact Postgres.reserveEmailCodeAttempt_eq db email now maxAttempts

/-- Storing a code refills the allowance of its address after the deadline, and keeps it
before.
-/
theorem allowance_putEmailCode (db : Database) (record : EmailCodeRecord)
    (lifetime : record.attemptsResetAt = record.createdAt + ttl)
    : (db.putEmailCode record).allowance email
      = if record.email = email then
          (if (db.codes.find email).all (fun row => row.attemptsResetAt ≤ record.createdAt) then
            (AllowanceEvent.refill record.createdAt).apply ttl (db.allowance email)
          else db.allowance email)
        else db.allowance email := by
  simp only [Database.allowance, Database.putEmailCode, Tables.Table.find_upsert]
  by_cases same : record.email = email
  · subst same
    simp only [if_true]
    cases found : db.codes.find record.email with
    | none => simp [AllowanceEvent.apply, lifetime]
    | some row =>
        by_cases lapsed : row.attemptsResetAt ≤ record.createdAt <;>
          simp [AllowanceEvent.apply, Database.resend, lifetime, lapsed]
  · simp [same, Ne.symm same]

/-- A reserved attempt is a use that was left, of the allowance of its own address. -/
theorem allowance_reserveEmailCodeAttempt (ttl : Millis) (email : String) (db : Database)
    (address : String) (now : Millis) (maxAttempts : Nat)
    : let result := db.reserveEmailCodeAttempt address now maxAttempts
      (result.1.isSome → AllowanceEvent.grant.Possible maxAttempts (db.allowance address))
      ∧ result.2.allowance email
        = if address = email ∧ result.1.isSome then
            AllowanceEvent.grant.apply ttl (db.allowance email)
          else db.allowance email := by
  simp only [Database.allowance, Database.reserveEmailCodeAttempt_fst,
    Database.find_reserveEmailCodeAttempt, Option.isSome_map]
  cases found : db.codes.find address with
  | none => by_cases same : email = address <;> simp [same, found]
  | some row =>
      by_cases open_ : row.attempts < maxAttempts ∧ row.expiresAt > now <;>
        by_cases same : email = address
      · subst same
        simp [found, Option.filter, open_, AllowanceEvent.apply, AllowanceEvent.Possible]
      · simp [Option.filter, open_, same, Ne.symm same, AllowanceEvent.Possible]
      · subst same
        simp [found, Option.filter, open_]
      · simpa [Option.filter, same, Ne.symm same] using fun left unexpired =>
          absurd ⟨left, unexpired⟩ open_

-----------------------------------------------------------------------------------------
-- Runs of statements
-----------------------------------------------------------------------------------------

/-- The records for an address set the deadline one lifetime after their creation. -/
def LastsFor (ttl : Millis) (email : String) : CodeStatement → Prop
  | .put record => record.email = email → record.attemptsResetAt = record.createdAt + ttl
  | .reserve .. => True

/-- Each statement is the event it means for the allowance of an address, or leaves it alone;
by cases on the statement.
-/
theorem run_allowance (dialect : Dialect) (maxAttempts : Nat) (db : Database)
    {statement : CodeStatement} (lasts : LastsFor ttl email statement)
    : AllowanceRun maxAttempts ttl (db.allowance email)
        (allowanceEvent email ⟨db, statement, (statement.run dialect maxAttempts db).1⟩).toList
        ((statement.run dialect maxAttempts db).2.allowance email) := by
  cases statement with
  | put record =>
      simp only [CodeStatement.run, Dialect.putEmailCode_eq, allowanceEvent]
      split
      · next same =>
          rw [allowance_putEmailCode db record (lasts same), if_pos same]
          split
          · next lapsed =>
              refine .single (fun one there => ?_)
              obtain ⟨row, found, rfl⟩ := Option.map_eq_some_iff.mp there
              simpa [found] using lapsed
          · next ahead =>
              have possible : (AllowanceEvent.carry record.createdAt).Possible maxAttempts
                  (db.allowance email) := by
                cases found : db.codes.find email with
                | none => simp [found] at ahead
                | some row =>
                    simpa [AllowanceEvent.Possible, Database.allowance, found] using ahead
              exact .single possible
      · next other =>
          simp only [Database.allowance, Database.putEmailCode, Tables.Table.find_upsert,
            Ne.symm other, if_false]
          exact .nil
  | reserve address now =>
      obtain ⟨possible, after_eq⟩ :=
        allowance_reserveEmailCodeAttempt ttl email db address now maxAttempts
      simp only [CodeStatement.run, Dialect.reserveEmailCodeAttempt_eq, allowanceEvent]
      rw [after_eq]
      split
      · next same =>
          subst same
          simp only [true_and]
          split
          · next granted => exact .single (possible granted)
          · exact .cons trivial .nil
      · next other =>
          simp only [other, false_and, if_false]
          exact .nil

/-- The log of any statements is a run of the allowance, by induction on the statements. -/
theorem codeLog_allowance {statements : List CodeStatement}
    (lasts : ∀ statement ∈ statements, LastsFor ttl email statement)
    : ∃ final, AllowanceRun maxAttempts ttl (db.allowance email)
        ((codeLog dialect maxAttempts db statements).filterMap (allowanceEvent email)) final := by
  induction statements generalizing db with
  | nil => exact ⟨_, .nil⟩
  | cons statement rest ih =>
      obtain ⟨here, later⟩ := List.forall_mem_cons.mp lasts
      obtain ⟨final, run⟩ := ih later
      have step := run_allowance dialect maxAttempts db here
      refine ⟨final, ?_⟩
      simp only [codeLog, List.filterMap_cons]
      split
      · next nothing =>
          rw [nothing] at step
          exact step.append run
      · next event means =>
          rw [means] at step
          exact step.append run

/-- An entry refills the allowance exactly when that is its event. -/
theorem allowanceEvent_refill {entry : CodeEntry} {now : Millis}
    : allowanceEvent email entry = some (.refill now)
      ↔ ∃ record, Refills email record entry ∧ record.createdAt = now := by
  obtain ⟨before, statement, reserved⟩ := entry
  constructor
  · intro means
    cases statement with
    | put record =>
        simp only [allowanceEvent] at means
        split at means <;> try contradiction
        split at means <;> cases means
        next same lapsed =>
        refine ⟨record, ⟨rfl, same, fun row found => ?_⟩, rfl⟩
        rw [Option.mem_def.mp found] at lapsed
        simpa using lapsed
    | reserve address moment =>
        simp only [allowanceEvent] at means
        split at means <;> try contradiction
        split at means <;> cases means
  · rintro ⟨record, ⟨rfl, same, lapsed⟩, rfl⟩
    have all : (before.codes.find email).all (fun row => row.attemptsResetAt ≤ record.createdAt) := by
      cases found : before.codes.find email with
      | none => rfl
      | some row => simpa using lapsed row found
    simp [allowanceEvent, same, all]

/-- A reserved attempt is a granted use. -/
theorem countP_reserves (log : List CodeEntry)
    : log.countP (reserves email)
      = (log.filterMap (allowanceEvent email)).countP AllowanceEvent.isGrant := by
  rw [List.countP_filterMap]
  refine List.countP_congr (fun entry _ => ?_)
  obtain ⟨before, statement, reserved⟩ := entry
  cases statement with
  | put record =>
      simp only [reserves, allowanceEvent]
      split <;> try split
      all_goals simp [AllowanceEvent.isGrant]
  | reserve address now =>
      by_cases same : address = email <;> cases reserved <;>
        simp [reserves, allowanceEvent, same, AllowanceEvent.isGrant]

/-- Resending neither refills the attempts of an address early nor stretches their deadline.
From a code that sets them to zero until the next that does, at most the maximum is reserved,
and that next one is created at least a lifetime later; whatever is sent, reserved or refused
in between, on any address and in any order of creation.
-/
theorem attemptBudget_carries {statements : List CodeStatement}
    (lasts : ∀ statement ∈ statements, LastsFor ttl email statement)
    {earlier middle later : List CodeEntry} {first : CodeEntry} {record : EmailCodeRecord}
    (split : codeLog dialect maxAttempts db statements = earlier ++ first :: (middle ++ later))
    (refill : Refills email record first)
    (between : ∀ entry ∈ middle, ∀ resent, ¬Refills email resent entry)
    : middle.countP (reserves email) ≤ maxAttempts
      ∧ ∀ next ∈ later.head?, ∀ renewed, Refills email renewed next
        → record.createdAt + ttl ≤ renewed.createdAt := by
  obtain ⟨final, run⟩ : ∃ final, AllowanceRun maxAttempts ttl (db.allowance email)
      ((codeLog dialect maxAttempts db statements).filterMap (allowanceEvent email)) final :=
    codeLog_allowance lasts
  rw [split, List.filterMap_append,
    List.filterMap_cons_some (allowanceEvent_refill.mpr ⟨record, refill, rfl⟩),
    List.filterMap_append] at run
  obtain ⟨_, _, run⟩ := run.of_append
  have noRefill : ∀ event ∈ middle.filterMap (allowanceEvent email), ¬event.isRefill := by
    rintro event member refills
    obtain ⟨entry, inside, means⟩ := List.mem_filterMap.mp member
    cases event with
    | refill now =>
        obtain ⟨resent, again, _⟩ := allowanceEvent_refill.mp means
        exact between entry inside resent again
    | _ => contradiction
  obtain ⟨bounded, apart⟩ := run.refills_apart noRefill
  refine ⟨by rwa [countP_reserves], fun next comes renewed refills => apart _ ?_⟩
  obtain ⟨rest, rfl⟩ := List.head?_eq_some_iff.mp (Option.mem_def.mp comes)
  rw [List.filterMap_cons_some (allowanceEvent_refill.mpr ⟨renewed, refills, rfl⟩)]
  rfl

/-- A code for an address, sent at a time. -/
def sampleRecord (createdAt : Millis) : EmailCodeRecord where
  email := "user42@example.com"
  codeHash := "090f6c52581bcc0f39a6e9db670d170bb27dd215f6526f2b668a97930bdc8cde"
  keyId := "ce7eaf99e83f6fb1"
  expiresAt := createdAt + 600000
  createdAt := createdAt
  attemptsResetAt := createdAt + 600000

/-- A code, an attempt, a resend, two attempts of which the second is refused, and a code
after the deadline.
-/
def sampleStatements : List CodeStatement :=
  [
    .put (sampleRecord 0), .reserve "user42@example.com" 1000, .put (sampleRecord 2000),
    .reserve "user42@example.com" 3000, .reserve "user42@example.com" 4000, .put (sampleRecord 600000)
  ]

def sampleLog : List CodeEntry := codeLog .d1 2 .empty sampleStatements

/-- Of the attempts around a resend the maximum of two is granted. -/
theorem attemptBudget_carries_sample
    : (sampleLog.tail.take 4).countP (reserves "user42@example.com") = 2
      ∧ (sampleLog.tail.take 4).countP (reserves "user42@example.com") ≤ 2
      ∧ ∀ next ∈ (sampleLog.tail.drop 4).head?, ∀ renewed, Refills "user42@example.com" renewed next
        → 0 + 600000 ≤ renewed.createdAt := by
  have split : codeLog .d1 2 .empty sampleStatements
      = [] ++ ⟨.empty, .put (sampleRecord 0), none⟩
        :: (sampleLog.tail.take 4 ++ sampleLog.tail.drop 4) := by
    rw [List.take_append_drop]
    rfl
  have noRefill : (sampleLog.tail.take 4).all (fun entry =>
      !(allowanceEvent "user42@example.com" entry).any AllowanceEvent.isRefill) := by
    decide +kernel
  have between : ∀ entry ∈ sampleLog.tail.take 4, ∀ resent, ¬Refills "user42@example.com" resent entry := by
    intro entry member resent refills
    have refuted := List.all_eq_true.mp noRefill entry member
    rw [allowanceEvent_refill.mpr ⟨resent, refills, rfl⟩] at refuted
    contradiction
  have lasts : ∀ statement ∈ sampleStatements, LastsFor 600000 "user42@example.com" statement := by
    simp [sampleStatements, LastsFor, sampleRecord]
  exact ⟨by decide +kernel,
    attemptBudget_carries lasts split ⟨rfl, rfl, fun _ found => by contradiction⟩ between⟩

end WorkersAuth.DeviceAuth

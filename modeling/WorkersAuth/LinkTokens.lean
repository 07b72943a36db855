import WorkersAuth.Atomic.Minting
import WorkersAuth.DeviceAuth.Deployment
import WorkersAuth.MagicLink
import WorkersAuth.Tokens.SingleUse

/-! Magic links are used once.
Any number of requests issue links, redeem them and clean the table up, one storage statement
at a time and each with its own clock. A link is a token in a place of its own, the row under
its hash: issuing fills the place, redeeming empties it in the statement that reads it.
-/

namespace WorkersAuth

open Atomic Tables Tokens

-----------------------------------------------------------------------------------------
-- The provider over its store
-----------------------------------------------------------------------------------------

namespace Links

/-- One step of the provider and of its D1 store: a call that a handler can make, among them the
store's `take`, or one of those that only issuing and cleaning up make.
-/
inductive Op where
  | handler (op : WorkersAuth.Op)
  | randomToken
  | storeClock
  | insertToken (row : MagicLinkRow)
  | deleteExpired (cutoff : Millis)
  | sendToken (email token : String)

/-- `insertToken` answers whether the row was stored: a hash that is there is refused. -/
@[reducible] def Op.Reply : Op → Type
  | .handler op => op.Reply
  | .randomToken => String
  | .storeClock => Millis
  | .insertToken .. => Bool
  | .deleteExpired .. => Nat
  | .sendToken .. => Unit

abbrev Task := Program Op Op.Reply

/-- A handler's calls, made among the provider's others. -/
def handler {α : Type} : Handler α → Task α
  | .pure answer => .pure answer
  | .call op next => .call (.handler op) (fun reply => handler (next reply))

/-- The provider's own `clock`. -/
abbrev clock : Task Millis := Program.perform (Op.handler (.host .clock))

abbrev randomToken : Task String := Program.perform Op.randomToken

/-- The `clock` of the store. -/
abbrev storeClock : Task Millis := Program.perform Op.storeClock

abbrev insertToken (row : MagicLinkRow) : Task Bool := Program.perform (Op.insertToken row)

abbrev deleteExpired (cutoff : Millis) : Task Nat := Program.perform (Op.deleteExpired cutoff)

abbrev sendToken (email token : String) : Task Unit := Program.perform (Op.sendToken email token)

/-- The provider's options that bear on its tokens, and what construction has checked. -/
structure Options extends MagicLinkOptions where
  ttlSec : ℚ := 900
  ttlSec_pos : 0 < ttlSec := by decide

/-- `email.trim().toLowerCase()`. -/
def normalizeEmail (platform : Platform) (email : String) : String :=
  platform.toLowerCase (.ofList (jsTrim email.toList))

/-- `put` of the store. -/
def put (tokenHash email : String) (expiresAt : Millis) : Task Bool := do
  insertToken { tokenHash, email, expiresAt, createdAt := ← storeClock }

/-- `start`, which throws at what is no address; a mail that cannot be sent is not reported. -/
def start (platform : Platform) (options : Options) (rawEmail : String)
    : Task (Except String Unit) := do
  let email := normalizeEmail platform rawEmail
  match DeviceAuth.looksLikeEmail email with
  | false => return .error "magicLink: a syntactically valid email address is required"
  | true =>
      let token ← randomToken
      let expiresAt := (← clock) + options.ttlSec * sec
      match ← put (sha256Hex platform token) email expiresAt with
      | false => return .error "UNIQUE constraint failed"
      | true =>
          sendToken email token
          return .ok ()

/-- `cleanup` of the store. -/
def cleanup (cutoff : Option Millis) : Task Nat := do
  match cutoff with
  | some cutoff => deleteExpired cutoff
  | none => deleteExpired (← storeClock)

inductive Request where
  | start (rawEmail : String)
  | verify (req : HttpRequest)
  | cleanup (cutoff : Option Millis)

inductive Answer where
  | started (result : Except String Unit)
  | verified (user : Option AuthUser)
  | removed (rows : Nat)

def answer (platform : Platform) (options : Options) : Request → Task Answer
  | .start rawEmail => return .started (← start platform options rawEmail)
  | .verify req =>
      return .verified (← handler (verifyMagicLink platform options.toMagicLinkOptions req))
  | .cleanup cutoff => return .removed (← cleanup cutoff)

/-- The world of a handler with the table of links, and the tokens drawn so far. -/
structure State (σ : Type) where
  linked : LinkedWorld σ
  drawn : List String

abbrev State.links {σ : Type} (state : State σ) : MagicLinkTable := state.linked.links

/-- The table has changed, and nothing else. -/
def State.withLinks {σ : Type} (state : State σ) (links : MagicLinkTable) : State σ :=
  { state with linked := { state.linked with links } }

/-- The semantics of all steps. No token is drawn twice; clocks answer anything. -/
def exec {σ : Type} (platform : Platform) (sessions : Semantics SessionCall SessionCall.Reply σ)
    : Semantics Op Op.Reply (State σ)
  | .handler op, before, reply, after =>
      execLinked platform sessions op before.linked reply after.linked ∧ after.drawn = before.drawn
  | .randomToken, before, token, after =>
      token ∉ before.drawn ∧ after = { before with drawn := token :: before.drawn }
  | .storeClock, before, _, after => after = before
  | .insertToken row, before, stored, after =>
      match before.links.insert row with
      | some links => stored = true ∧ after = before.withLinks links
      | none => stored = false ∧ after = before
  | .deleteExpired cutoff, before, rows, after =>
      rows = before.links.countWhere (fun row => row.expiresAt ≤ cutoff)
      ∧ after = before.withLinks (before.links.deleteWhere (fun row => row.expiresAt ≤ cutoff))
  | .sendToken .., before, _, after => after = before

/-- A provider over a `d1MagicLinkStore` that any number of calls use at once. -/
def service {σ : Type} (platform : Platform) (sessions : Semantics SessionCall SessionCall.Reply σ)
    (options : Options)
    : Service Op Op.Reply (State σ) Request Answer where
  program := answer platform options
  exec := exec platform sessions

-----------------------------------------------------------------------------------------
-- What the programs do
-----------------------------------------------------------------------------------------

/-- A call of a handler, made among the provider's others. -/
def made (call : Call WorkersAuth.Op WorkersAuth.Op.Reply) : Call Op Op.Reply :=
  ⟨.handler call.op, call.ret⟩

/-- A handler answers among the other calls as it does by itself, by induction on it. -/
theorem handler_leads_pure {α : Type} {program : Handler α} {calls : List (Call Op Op.Reply)}
    {answer : α}
    : (handler program).Leads calls (.pure answer)
      ↔ ∃ inner, calls = inner.map made ∧ program.Leads inner (.pure answer) := by
  induction program generalizing calls with
  | pure result => simp [handler]
  | call op next ih =>
      simp only [handler, Program.leads_call_pure, ih]
      constructor
      · rintro ⟨reply, _, rfl, inner, rfl, leads⟩
        exact ⟨⟨op, reply⟩ :: inner, rfl, reply, inner, rfl, leads⟩
      · rintro ⟨_, rfl, reply, inner, rfl, leads⟩
        exact ⟨reply, inner.map made, rfl, inner, rfl, leads⟩

/-- The call stores no token. -/
def StoresNothing (op : Op) : Prop :=
  ∀ row, op ≠ .insertToken row

/-- A handler stores no token, by induction on it. -/
theorem handler_within {α : Type} (program : Handler α)
    : (handler program).Within StoresNothing := by
  induction program with
  | pure answer => trivial
  | call op next ih => exact ⟨nofun, ih⟩

variable {platform : Platform} {options : Options}

/-- What a request has done when it is about to store a token: it is a `start`, it has drawn the
token, and the row is for its own address and expires by its own clock.
-/
theorem stores_leads {request : Request} {calls : List (Call Op Op.Reply)} {row : MagicLinkRow}
    {rest : Bool → Task Answer}
    (leads : (answer platform options request).Leads calls (.call (.insertToken row) rest))
    : ∃ rawEmail token issuedAt createdAt,
        request = .start rawEmail
        ∧ calls = [⟨.randomToken, token⟩, ⟨.handler (.host .clock), issuedAt⟩,
            ⟨.storeClock, createdAt⟩]
        ∧ row = {
            tokenHash := sha256Hex platform token
            email := normalizeEmail platform rawEmail
            expiresAt := issuedAt + options.ttlSec * sec
            createdAt
          } := by
  cases request with
  | start rawEmail =>
      simp only [answer, start, put] at leads
      rcases Program.leads_bind_call leads with ⟨inner, early⟩ | ⟨_, _, _, _, _, impossible⟩
      · split at early
        · simp at early
        · rcases Program.leads_call.mp early with ⟨_, other⟩ | ⟨token, _, rfl, drawn⟩
          · simp at other
          rcases Program.leads_call.mp drawn with ⟨_, other⟩ | ⟨issuedAt, _, rfl, timed⟩
          · simp at other
          rcases Program.leads_call.mp timed with ⟨_, other⟩ | ⟨createdAt, _, rfl, dated⟩
          · simp at other
          rcases Program.leads_call.mp dated with ⟨rfl, same⟩ | ⟨stored, _, rfl, later⟩
          · cases same
            exact ⟨rawEmail, token, issuedAt, createdAt, rfl, rfl, rfl⟩
          cases stored with
          | false => exact absurd (Program.leads_pure.mp later).2 nofun
          | true =>
              rcases Program.leads_call.mp later with ⟨_, other⟩ | ⟨_, _, _, mailed⟩
              · simp at other
              · exact absurd (Program.leads_pure.mp mailed).2 nofun
      · simp at impossible
  | verify req =>
      have within : (answer platform options (.verify req)).Within StoresNothing :=
        (handler_within _).bind (fun _ => trivial)
      exact absurd rfl (within.leads leads row)
  | cleanup cutoff =>
      have within : (answer platform options (.cleanup cutoff)).Within StoresNothing := by
        cases cutoff
        · exact .perform nofun (fun _ => .perform nofun (fun _ => trivial))
        · exact .perform nofun (fun _ => trivial)
      exact absurd rfl (within.leads leads row)

/-- What the hook, if there is one, and else the default mapping gives for an address, going by
the calls that were made.
-/
def Gives (options : Options) (calls : List (Call Op Op.Reply)) (email : String) (user : AuthUser)
    : Prop :=
  if options.resolvesUser then
    ∃ found, calls = [⟨.handler (.host (.resolveUser email)), some found⟩]
      ∧ user = { found with claims := JsonObject.set found.claims "provider" (.str options.name) }
  else calls = [] ∧ user = options.userOf email

/-- A record that has been accepted was not expired at the reading of the clock, and the user is
that of its address.
-/
theorem accepted_leads {record : MagicLinkRecord}
    {calls : List (Call WorkersAuth.Op WorkersAuth.Op.Reply)} {user : AuthUser}
    (leads : (acceptMagicLink options.toMagicLinkOptions record).Leads calls (.pure (some user)))
    : ∃ readAt more, calls = ⟨.host .clock, readAt⟩ :: more
        ∧ readAt < record.expiresAt ∧ Gives options (more.map made) record.email user := by
  unfold acceptMagicLink at leads
  unfold Gives
  cases hooked : options.resolvesUser with
  | true =>
      simp only [hooked, if_true, Program.perform_bind] at leads ⊢
      obtain ⟨readAt, more, rfl, resolves⟩ := Program.leads_call_pure.mp leads
      refine ⟨readAt, more, rfl, ?_⟩
      split at resolves
      · exact absurd (Program.leads_pure.mp resolves).2 nofun
      next unexpired =>
      refine ⟨not_le.mp unexpired, ?_⟩
      obtain ⟨found, last, rfl, answers⟩ := Program.leads_call_pure.mp resolves
      cases found with
      | none => exact absurd (Program.leads_pure.mp answers).2 nofun
      | some found =>
          obtain ⟨rfl, same⟩ := Program.leads_pure.mp answers
          cases same
          exact ⟨found, rfl, rfl⟩
  | false =>
      simp only [hooked, Bool.false_eq_true, if_false, Program.perform_bind] at leads ⊢
      obtain ⟨readAt, more, rfl, answers⟩ := Program.leads_call_pure.mp leads
      refine ⟨readAt, more, rfl, ?_⟩
      split at answers
      · exact absurd (Program.leads_pure.mp answers).2 nofun
      next unexpired =>
      obtain ⟨rfl, same⟩ := Program.leads_pure.mp answers
      cases same
      exact ⟨not_le.mp unexpired, rfl, rfl⟩

/-- A verification that answers a user has taken the record of the token it carries, has read
its clock before the record expires, and gives the user of the record's address.
-/
theorem verified_leads {req : HttpRequest} {calls : List (Call Op Op.Reply)} {user : AuthUser}
    (leads : (answer platform options (.verify req)).Leads calls (.pure (.verified (some user))))
    : ∃ token record readAt more,
        options.carried req = some token
        ∧ calls = ⟨.handler (.host (.takeMagicLink (sha256Hex platform token))), some record⟩
            :: ⟨.handler (.host .clock), readAt⟩ :: more
        ∧ readAt < record.expiresAt ∧ Gives options more record.email user := by
  obtain ⟨first, _, result, rfl, early, last⟩ := Program.leads_bind_pure.mp leads
  obtain ⟨rfl, same⟩ := Program.leads_pure.mp last
  cases same
  rw [List.append_nil]
  obtain ⟨inner, rfl, verifies⟩ := handler_leads_pure.mp early
  unfold verifyMagicLink at verifies
  split at verifies
  · exact absurd (Program.leads_pure.mp verifies).2 nofun
  next token carried =>
  obtain ⟨taken, rest, rfl, accepts⟩ := Program.leads_call_pure.mp verifies
  cases taken with
  | none => exact absurd (Program.leads_pure.mp accepts).2 nofun
  | some record =>
  obtain ⟨readAt, more, rfl, unexpired, gives⟩ := accepted_leads accepts
  exact ⟨token, record, readAt, more.map made, carried, rfl, unexpired, gives⟩

-----------------------------------------------------------------------------------------
-- The place of a token
-----------------------------------------------------------------------------------------

/-- What a call means for the place of a hash. -/
def placeEvent (tokenHash : String) (entry : Entry Op Op.Reply) : Option (TokenEvent MagicLinkRow) :=
  match entry.call with
  | ⟨.insertToken row, stored⟩ =>
      if row.tokenHash = tokenHash ∧ stored then some (.issue row) else none
  | ⟨.handler (.host (.takeMagicLink taken)), record⟩ =>
      if taken = tokenHash ∧ record.isSome then some .take else none
  | _ => none

/-- What the log says happened to the place of a hash, oldest first. -/
def placeEvents (tokenHash : String) (log : List (Entry Op Op.Reply))
    : List (TokenEvent MagicLinkRow) :=
  log.filterMap (placeEvent tokenHash)

/-- The call fills the place of the hash. -/
def fills (tokenHash : String) (entry : Entry Op Op.Reply) : Bool :=
  (placeEvent tokenHash entry).any TokenEvent.isIssue

/-- The call empties the place of the hash. -/
def empties (tokenHash : String) (entry : Entry Op Op.Reply) : Bool :=
  (placeEvent tokenHash entry).any TokenEvent.isTake

variable {σ : Type} {sessions : Semantics SessionCall SessionCall.Reply σ}
  {before after : State σ} {tokenHash : String} {entry : Entry Op Op.Reply}
  {log : List (Entry Op Op.Reply)}

/-- Filling is storing a row under the hash, by cases on the call. -/
theorem placeEvent_issue {row : MagicLinkRow}
    : placeEvent tokenHash entry = some (.issue row)
      ↔ entry.call = ⟨.insertToken row, true⟩ ∧ row.tokenHash = tokenHash := by
  obtain ⟨thread, op, reply⟩ := entry
  rcases op with (call | call | call) | _ | _ | stored | _ | _
  case handler.host => cases call <;> simp [placeEvent]
  case insertToken => 
    cases reply <;> simp [placeEvent]
    grind
  all_goals simp [placeEvent]

/-- Taking is answering with a record, by cases on the call. -/
theorem placeEvent_take
    : placeEvent tokenHash entry = some .take
      ↔ ∃ record, entry.call = ⟨.handler (.host (.takeMagicLink tokenHash)), some record⟩ := by
  obtain ⟨thread, op, reply⟩ := entry
  rcases op with (call | call | call) | _ | _ | stored | _ | _
  case handler.host =>
    cases call with
    | takeMagicLink taken =>
        by_cases same : taken = tokenHash
        · subst same
          cases reply <;> simp [placeEvent]
        · simp [placeEvent, same]
    | _ => simp [placeEvent]
  all_goals simp [placeEvent]

/-- A call that fills a place has stored a row. -/
theorem fills_iff
    : fills tokenHash entry = true
      ↔ ∃ row, entry.call = ⟨.insertToken row, true⟩ ∧ row.tokenHash = tokenHash := by
  simp only [fills, Option.any_eq_true, ← placeEvent_issue]
  constructor
  · rintro ⟨event, means, issues⟩
    cases event with
    | issue row => exact ⟨row, means⟩
    | take => contradiction
  · rintro ⟨row, means⟩
    exact ⟨.issue row, means, rfl⟩

/-- The calls that mean an event for the place are counted in its events. -/
theorem countP_places (counts : TokenEvent MagicLinkRow → Bool)
    : log.countP (fun entry => (placeEvent tokenHash entry).any counts)
      = (placeEvents tokenHash log).countP counts := by
  rw [placeEvents, List.countP_filterMap]
  refine List.countP_congr (fun entry _ => ?_)
  cases placeEvent tokenHash entry <;> simp

/-- One more call is its event for the place, if it is one. -/
theorem placeEvents_append
    : placeEvents tokenHash (log ++ [entry])
      = placeEvents tokenHash log ++ (placeEvent tokenHash entry).toList := by
  simp only [placeEvents, List.filterMap_append, List.filterMap_cons, List.filterMap_nil]
  cases placeEvent tokenHash entry <;> rfl

/-- A record is taken only while its row is there. -/
theorem exec_take {record : MagicLinkRecord}
    (executes : exec platform sessions (.handler (.host (.takeMagicLink tokenHash))) before
      (some record) after)
    : ∃ row, before.links.find tokenHash = some row ∧ row.record = record := by
  have taken : some record = (before.links.take tokenHash).1 := congrArg Prod.fst executes.1.1
  obtain ⟨row, found, same⟩ := Option.map_eq_some_iff.mp taken.symm
  exact ⟨row, (Option.filter_eq_some_iff.mp found).1, same⟩

/-- Taking leaves the places of the other hashes as they are, and its own empty. -/
theorem exec_take_find {taken : String} {reply : Option MagicLinkRecord}
    (executes : exec platform sessions (.handler (.host (.takeMagicLink taken))) before reply after)
    (tokenHash : String)
    : after.links.find tokenHash
      = if tokenHash = taken then none else before.links.find tokenHash := by
  have links_eq : after.links = (before.links.deleteReturning taken (fun _ => true)).2 :=
    congrArg Prod.snd executes.1.1
  rw [links_eq, Table.find_deleteReturning]
  split
  · cases before.links.find tokenHash <;> rfl
  · rfl

/-- A row that is there after a call was stored by this call or was there before, and not
taken; by cases on the call.
-/
theorem exec_place {op : Op} {reply : op.Reply}
    (executes : exec platform sessions op before reply after) (tokenHash : String) (thread : Nat) {row : MagicLinkRow}
    (there : after.links.find tokenHash = some row)
    : placeEvent tokenHash ⟨thread, op, reply⟩ = some (.issue row)
      ∨ placeEvent tokenHash ⟨thread, op, reply⟩ = none
        ∧ before.links.find tokenHash = some row := by
  have unchanged (same : after.links = before.links)
      : before.links.find tokenHash = some row := same ▸ there
  rcases op with (call | call | call) | _ | _ | stored | cutoff | _
  case handler.host =>
    cases call with
    | takeMagicLink taken =>
        rw [exec_take_find executes] at there
        split at there
        · contradiction
        · next other => exact .inr ⟨if_neg (fun same => other same.1.symm), there⟩
    | _ => exact .inr ⟨rfl, unchanged executes.1.2⟩
  case handler.store => exact .inr ⟨rfl, unchanged executes.1.2⟩
  case handler.session => exact .inr ⟨rfl, unchanged executes.1.2⟩
  case randomToken => exact .inr ⟨rfl, unchanged (by rw [executes.2])⟩
  case storeClock => exact .inr ⟨rfl, unchanged (by rw [executes])⟩
  case sendToken => exact .inr ⟨rfl, unchanged (by rw [executes])⟩
  case deleteExpired =>
    have kept : after.links = before.links.deleteWhere (fun row => row.expiresAt ≤ cutoff) :=
      congrArg State.links executes.2
    rw [kept, Table.find_deleteWhere, Option.filter_eq_some_iff] at there
    exact .inr ⟨rfl, there.1⟩
  case insertToken =>
    simp only [exec] at executes
    split at executes
    · next links inserted =>
        obtain ⟨rfl, rfl⟩ := executes
        rw [State.withLinks, Table.find_insert inserted] at there
        split at there
        · next same => 
            cases there
            exact .inl (if_pos ⟨same.symm, rfl⟩)
        · next other =>
            exact .inr ⟨if_neg (fun same => other same.1.symm), there⟩
    · obtain ⟨rfl, rfl⟩ := executes
      exact .inr ⟨if_neg (by simp), there⟩

/-- The tokens that are drawn. -/
def tokens (σ : Type) : Mint Op Op.Reply (State σ) String where
  draws call :=
    match call with
    | ⟨.randomToken, token⟩ => some token
    | _ => none
  used state token := token ∈ state.drawn

/-- Only `randomToken` draws a token, by cases on the call. -/
theorem tokens_draws {op : Op} {reply : op.Reply} {token : String}
    (draws : (tokens σ).draws ⟨op, reply⟩ = some token)
    : op = .randomToken := by
  cases op with
  | randomToken => rfl
  | _ => simp [tokens] at draws

/-- No token is drawn twice, by cases on the call. -/
theorem tokens_fresh : (tokens σ).Fresh (exec platform sessions) where
  unused op before reply after token executes draws := by
    cases tokens_draws draws
    cases draws
    exact executes.1
  taken op before reply after token executes draws := by
    cases tokens_draws draws
    cases draws
    rw [executes.2]
    exact List.mem_cons_self
  kept op before reply after token executes known := by
    cases op with
    | handler op =>
        have same : after.drawn = before.drawn := executes.2
        exact Eq.mpr (congrArg (token ∈ ·) same) known
    | randomToken => exact executes.2 ▸ List.mem_cons_of_mem _ known
    | storeClock => exact executes ▸ known
    | insertToken row =>
        simp only [exec] at executes
        split at executes <;> exact executes.2 ▸ known
    | deleteExpired cutoff => exact executes.2 ▸ known
    | sendToken email token => exact executes ▸ known

-----------------------------------------------------------------------------------------
-- Every run
-----------------------------------------------------------------------------------------

variable {world : State σ} {pool : Pool Op Op.Reply (State σ) Request Answer}

/-- In every reachable state the row of a hash is the token in its place, and nothing was ever
taken from an empty place; by induction on the run.
-/
theorem reachable_places (fresh : world.links.find tokenHash = none)
    (reach : (service platform sessions options).Reachable world pool)
    : (∀ row, pool.world.links.find tokenHash = some row →
        current (placeEvents tokenHash pool.log) = some row)
      ∧ Honest (placeEvents tokenHash pool.log) := by
  induction reach with
  | refl =>
      refine ⟨fun row there => ?_, honest_nil⟩
      rw [Pool.start, fresh] at there
      contradiction
  | @tail earlier later _ step ih =>
      obtain ⟨there, honest⟩ := ih
      cases step with
      | arrive request => exact ⟨there, honest⟩
      | @perform entry _ performs =>
          have executes := performs.executes
          rw [performs.log_eq, placeEvents_append]
          constructor
          · intro row found
            rcases exec_place executes tokenHash entry.thread found with issued | ⟨silent, old⟩
            · rw [issued]
              exact current_issue _ row
            · rw [silent, Option.toList_none, List.append_nil]
              exact there row old
          · cases means : placeEvent tokenHash entry with
            | none => 
                rw [Option.toList_none, List.append_nil]
                exact honest
            | some event =>
                refine honest.snoc ?_
                rintro rfl
                obtain ⟨record, call_eq⟩ := placeEvent_take.mp means
                obtain ⟨thread, _⟩ := entry
                cases call_eq
                obtain ⟨row, found, _⟩ := exec_take executes
                exact Option.isSome_iff_exists.mpr ⟨row, there row found⟩

/-- The token in a place was stored there by a call in the log. -/
theorem stored_of_current {row : MagicLinkRow}
    (there : current (placeEvents tokenHash log) = some row)
    : ∃ thread, (⟨thread, .insertToken row, true⟩ : Entry Op Op.Reply) ∈ log
        ∧ row.tokenHash = tokenHash := by
  simp only [current] at there
  split at there
  · next last =>
      cases there
      obtain ⟨⟨thread, _⟩, logged, means⟩ := List.mem_filterMap.mp (List.mem_of_getLast? last)
      obtain ⟨call_eq, same⟩ := placeEvent_issue.mp means
      cases call_eq
      exact ⟨thread, logged, same⟩
  · contradiction

variable (platform options) in
/-- The token was issued for the address, until this time: a `start` for the address has drawn
it, has counted the lifetime from its own reading of the clock, and has stored the row.
-/
structure Issued (pool : Pool Op Op.Reply (State σ) Request Answer) (thread : Nat)
    (token email : String) (expiresAt : Millis)
    : Prop where
  asked : ∃ rawEmail, pool.requestOf thread = some (.start rawEmail)
    ∧ email = normalizeEmail platform rawEmail
  drawn : ⟨.randomToken, token⟩ ∈ pool.history thread
  timed : ∃ issuedAt, ⟨.handler (.host .clock), issuedAt⟩ ∈ pool.history thread
    ∧ expiresAt = issuedAt + options.ttlSec * sec
  stored : ∃ createdAt,
    ⟨.insertToken ⟨sha256Hex platform token, email, expiresAt, createdAt⟩, true⟩
      ∈ pool.history thread

/-- Every row that was ever stored is that of a token issued. -/
theorem issued_of_stored (reach : (service platform sessions options).Reachable world pool)
    {thread : Nat} {row : MagicLinkRow}
    (logged : (⟨thread, .insertToken row, true⟩ : Entry Op Op.Reply) ∈ pool.log)
    : ∃ token, row.tokenHash = sha256Hex platform token
        ∧ Issued platform options pool thread token row.email row.expiresAt := by
  obtain ⟨before, after, split⟩ := List.append_of_mem logged
  obtain ⟨earlier, following, reached, _, performs, run⟩ := reach.at_entry split
  obtain ⟨request, rest, serves, leads⟩ := performs.leads reached
  obtain ⟨rawEmail, token, issuedAt, createdAt, rfl, history_eq, rfl⟩ := stores_leads leads
  have later : (service platform sessions options).Run earlier pool :=
    Relation.ReflTransGen.head (.perform performs) run
  have recorded (call : Call Op Op.Reply) (member : call ∈ earlier.history thread)
      : call ∈ pool.history thread := Service.mem_history_run later member
  refine ⟨token, rfl, ⟨rawEmail, Service.requestOf_run later serves, rfl⟩, recorded _ ?_,
    ⟨issuedAt, recorded _ ?_, rfl⟩, ⟨createdAt, Service.mem_history.mpr logged⟩⟩
  · rw [history_eq]
    simp
  · rw [history_eq]
    simp

/-- Tokens of one hash are the same token, and one thread has drawn it. -/
theorem issuer_unique (injective : Function.Injective platform.sha256)
    (reach : (service platform sessions options).Reachable world pool) {first second : Nat}
    {one other email address : String} {until' deadline : Millis}
    (first_issued : Issued platform options pool first one email until')
    (second_issued : Issued platform options pool second other address deadline)
    (hashes : sha256Hex platform one = sha256Hex platform other)
    : first = second := by
  obtain rfl : one = other := injective (toHex_injective hashes)
  exact reach.drawn_once tokens_fresh first_issued.drawn second_issued.drawn rfl rfl

/-- A place is filled at most once, by induction on the run: two rows of one hash are of one
token, which one thread has drawn, and a thread stores one row.
-/
theorem filled_once (injective : Function.Injective platform.sha256)
    (reach : (service platform sessions options).Reachable world pool) (tokenHash : String)
    : pool.log.countP (fills tokenHash) ≤ 1 := by
  induction reach with
  | refl => simp [Pool.start]
  | @tail earlier later reached step ih =>
      cases step with
      | arrive request => exact ih
      | @perform entry _ performs =>
          have log_eq := performs.log_eq
          rw [log_eq, List.countP_append, List.countP_singleton]
          split
          case isFalse => omega
          next filling =>
          have none_before : earlier.log.countP (fills tokenHash) = 0 := by
            refine List.countP_eq_zero.mpr (fun other logged again => ?_)
            have reachable := Service.Reachable.step reached (.perform performs)
            obtain ⟨row, call_eq, same⟩ := fills_iff.mp filling
            obtain ⟨another, other_eq, other_same⟩ := fills_iff.mp again
            obtain ⟨thread, _⟩ := entry
            obtain ⟨writer, _⟩ := other
            cases call_eq
            cases other_eq
            obtain ⟨token, hash_eq, issued⟩ := issued_of_stored reachable
              (log_eq ▸ List.mem_append_right _ (List.mem_singleton_self _))
            obtain ⟨token', hash_eq', issued'⟩ := issued_of_stored reachable
              (log_eq ▸ List.mem_append_left _ logged)
            have hashes : sha256Hex platform token = sha256Hex platform token' := by
              rw [← hash_eq, ← hash_eq', same, other_same]
            obtain rfl := issuer_unique injective reachable issued issued' hashes
            -- The thread had stored nothing yet.
            obtain ⟨_, _, _, leads⟩ := performs.leads reached
            obtain ⟨_, _, _, _, _, history_eq, _⟩ := stores_leads leads
            have recorded := Service.mem_history.mpr logged
            rw [history_eq] at recorded
            simp at recorded
          omega

/-- A place is emptied at most once. -/
theorem emptied_once (injective : Function.Injective platform.sha256)
    (fresh : world.links.find tokenHash = none)
    (reach : (service platform sessions options).Reachable world pool)
    : pool.log.countP (empties tokenHash) ≤ 1 := by
  have taken := (reachable_places fresh reach).2.takes_le
  have stored := (countP_places TokenEvent.isIssue).symm.trans_le
    (filled_once injective reach tokenHash)
  refine (countP_places TokenEvent.isTake).trans_le ?_
  omega

/-- Of the elements of a list that are counted at most once there is one. -/
theorem eq_of_countP_le_one {α : Type} {list : List α} {counts : α → Bool} {first second : α}
    (once : list.countP counts ≤ 1) (firstIn : first ∈ list) (secondIn : second ∈ list)
    (first_counts : counts first = true) (second_counts : counts second = true)
    : first = second := by
  rw [List.countP_eq_length_filter] at once
  have firstIn := List.mem_filter.mpr ⟨firstIn, first_counts⟩
  have secondIn := List.mem_filter.mpr ⟨secondIn, second_counts⟩
  match list.filter counts, once, firstIn, secondIn with
  | [only], _, firstIn, secondIn =>
      exact (List.mem_singleton.mp firstIn).trans (List.mem_singleton.mp secondIn).symm

variable (platform options) in
/-- What a verification that answers a user has done. Its token was issued, by one `start` only;
it has taken the record, then read its clock before the record expires, and the user is that of
the address the token was issued for.
-/
def Redeemed (pool : Pool Op Op.Reply (State σ) Request Answer) (thread : Nat) (token : String)
    (user : AuthUser)
    : Prop :=
  ∃ issuer email expiresAt readAt more,
    Issued platform options pool issuer token email expiresAt
    ∧ (∀ other, ⟨.randomToken, token⟩ ∈ pool.history other → other = issuer)
    ∧ pool.history thread
      = ⟨.handler (.host (.takeMagicLink (sha256Hex platform token))), some ⟨email, expiresAt⟩⟩
        :: ⟨.handler (.host .clock), readAt⟩ :: more
    ∧ readAt < expiresAt
    ∧ Gives options more email user

/-- Magic links, in every run from an empty table. A verification answers a user only for a token
that was issued, before it expires and with the user of its address; and at most one
verification does so for each token.
-/
theorem magicLinks_singleUse (injective : Function.Injective platform.sha256)
    (fresh : world.links = .empty)
    (reach : (service platform sessions options).Reachable world pool)
    : (∀ index req user, pool.Answered index (.verify req) (.verified (some user)) →
        ∃ token, options.carried req = some token ∧ Redeemed platform options pool index token user)
      ∧ ∀ first second req req' user user' token,
          pool.Answered first (.verify req) (.verified (some user)) →
          pool.Answered second (.verify req') (.verified (some user')) →
          options.carried req = some token → options.carried req' = some token →
          first = second := by
  constructor
  · intro index req user answered
    obtain ⟨token, record, readAt, more, carried, history_eq, unexpired, gives⟩ :=
      verified_leads (reach.leads_answered answered)
    have taken : _ ∈ pool.history index := history_eq ▸ List.mem_cons_self
    obtain ⟨before, after, split⟩ := List.append_of_mem (Service.mem_history.mp taken)
    obtain ⟨earlier, following, reached, _, performs, run⟩ := reach.at_entry split
    have later : (service platform sessions options).Run earlier pool :=
      Relation.ReflTransGen.head (.perform performs) run
    obtain ⟨row, found, rfl⟩ := exec_take performs.executes
    have there := (reachable_places (by rw [fresh]; rfl) reached).1 row found
    obtain ⟨issuer, stored, hash_eq⟩ := stored_of_current there
    obtain ⟨token', hash_eq', issued⟩ :=
      issued_of_stored reach ((Service.log_grows later).subset stored)
    obtain rfl : token' = token :=
      injective (toHex_injective (hash_eq'.symm.trans hash_eq))
    refine ⟨token', carried, issuer, row.email, row.expiresAt, readAt, more, issued, ?_, history_eq,
      unexpired, gives⟩
    intro other drew
    exact reach.drawn_once tokens_fresh drew issued.drawn rfl rfl
  · intro first second req req' user user' token answered answered' carried carried'
    obtain ⟨_, record, _, _, carries, history_eq, _⟩ :=
      verified_leads (reach.leads_answered answered)
    obtain ⟨_, record', _, _, carries', history_eq', _⟩ :=
      verified_leads (reach.leads_answered answered')
    obtain rfl := Option.some.inj (carried.symm.trans carries)
    obtain rfl := Option.some.inj (carried'.symm.trans carries')
    have taken : _ ∈ pool.history first := history_eq ▸ List.mem_cons_self
    have taken' : _ ∈ pool.history second := history_eq' ▸ List.mem_cons_self
    have once : pool.log.countP (empties (sha256Hex platform token)) ≤ 1 :=
      emptied_once injective (by rw [fresh]; rfl) reach
    have empties_of {thread : Nat} {record : MagicLinkRecord}
        : empties (sha256Hex platform token)
            ⟨thread, .handler (.host (.takeMagicLink (sha256Hex platform token))), some record⟩ := by
      simp [empties, placeEvent, TokenEvent.isTake]
    have same := eq_of_countP_le_one once (Service.mem_history.mp taken)
      (Service.mem_history.mp taken') empties_of empties_of
    exact congrArg Entry.thread same

-----------------------------------------------------------------------------------------
-- A link that is followed twice
-----------------------------------------------------------------------------------------

section Computing

variable (platform : Platform) (users : String → Option AuthUser)

/-- Every call, computed; the token that is drawn comes from outside. -/
def compute : Runner Op Op.Reply (State MemorySessions) Outside
  | _, .handler (.host (.takeMagicLink tokenHash)), state =>
      let (record, links) := state.links.take tokenHash
      some (record, state.withLinks links)
  | outside, .handler op, state =>
      (WorkersAuth.compute platform users outside op state.linked.base).map (fun (reply, base) =>
        (reply, { state with linked := { state.linked with base } }))
  | outside, .randomToken, state =>
      if outside.code ∈ state.drawn then none
      else some (outside.code, { state with drawn := outside.code :: state.drawn })
  | outside, .storeClock, state => some (outside.now, state)
  | _, .insertToken row, state =>
      match state.links.insert row with
      | some links => some (true, state.withLinks links)
      | none => some (false, state)
  | _, .deleteExpired cutoff, state =>
      some (state.links.countWhere (fun row => row.expiresAt ≤ cutoff),
        state.withLinks (state.links.deleteWhere (fun row => row.expiresAt ≤ cutoff)))
  | _, .sendToken .., state => some ((), state)

/-- Computed calls are calls of the service over the store in memory, by cases on the call. -/
theorem compute_sound : (compute platform users).Sound (exec platform memorySessions) := by
  intro outside op before reply after computed
  cases op with
  | handler op =>
      rcases op with call | call | call
      case host =>
        cases call
        case takeMagicLink tokenHash =>
          cases computed
          exact ⟨⟨rfl, rfl⟩, rfl⟩
        all_goals
          simp only [compute] at computed
          obtain ⟨⟨_, base⟩, ran, same⟩ := Option.map_eq_some_iff.mp computed
          cases same
          exact ⟨⟨WorkersAuth.compute_sound platform users _ _ _ _ _ ran, rfl⟩, rfl⟩
      all_goals
        simp only [compute] at computed
        obtain ⟨⟨_, base⟩, ran, same⟩ := Option.map_eq_some_iff.mp computed
        cases same
        exact ⟨⟨WorkersAuth.compute_sound platform users _ _ _ _ _ ran, rfl⟩, rfl⟩
  | randomToken =>
      simp only [compute] at computed
      split at computed
      · contradiction
      · next unused =>
          cases computed
          exact ⟨unused, rfl⟩
  | insertToken row =>
      simp only [compute] at computed
      split at computed
      · next links inserted =>
          cases computed
          simp [exec, inserted]
      · next refused =>
          cases computed
          simp [exec, refused]
  | deleteExpired cutoff =>
      cases computed
      exact ⟨rfl, rfl⟩
  | _ =>
      cases computed
      rfl

end Computing

end Links

namespace Sample

def linkToken : String := "QEFCQ0RFRkdISUpLTE1OT1BRUlNUVVZXWFlaW1xdXl8"

def linkOptions : Links.Options where
  getToken := getMagicToken

/-- A request that carries the link's token. -/
def linkRequest : HttpRequest where
  method := "GET"
  url := "https://app.example.com/auth/callback"
  header name := if name = "x-magic-token" then some linkToken else none
  cookie _ := none
  body := .body none

/-- No link has been issued. -/
def unlinked : Links.State MemorySessions := ⟨⟨empty, .empty⟩, []⟩

/-- One link is issued; two verifications of it arrive, and the second takes its record first. -/
def linkUse : List (Move Links.Request Outside) :=
  .arrive (.start " User42@example.com ") :: Move.times 5 0 { now := 0, code := linkToken }
    ++ .arrive (.verify linkRequest) :: .arrive (.verify linkRequest)
      :: Move.times 1 2 { now := 1000 } ++ Move.times 1 1 { now := 1000 }
      ++ Move.times 1 2 { now := 2000 }

/-- The verification at this position has answered the user with this id. -/
def verifiedAs (userId : String) (index : Nat)
    (state : Pool Links.Op Links.Op.Reply (Links.State MemorySessions) Links.Request Links.Answer)
    : Bool :=
  match state.answerOf index with
  | some (.verify req, .verified (some user)) =>
      linkOptions.carried req = some linkToken && user.id = userId
  | _ => false

end Sample

/-- A link is followed twice: the verification that takes the record first answers the user. -/
theorem magicLinks_singleUse_played
    : ∃ state req user,
        (Links.service Sample.platform memorySessions Sample.linkOptions).Reachable Sample.unlinked
          state
        ∧ state.Answered 2 (.verify req) (.verified (some user))
        ∧ Links.Redeemed Sample.platform Sample.linkOptions state 2 Sample.linkToken user := by
  have played : ((Links.service Sample.platform memorySessions Sample.linkOptions).play
      (Links.compute Sample.platform Sample.users) (fun _ _ => true) (.start Sample.unlinked)
      Sample.linkUse).any (Sample.verifiedAs "user42@example.com" 2) = true := by
    decide +kernel
  obtain ⟨state, played, verified⟩ := (Option.any_eq_true ..).mp played
  have reach := Service.reachable_of_play (Links.compute_sound Sample.platform Sample.users) played
  unfold Sample.verifiedAs at verified
  split at verified
  · next req user found =>
      rw [Bool.and_eq_true, decide_eq_true_eq] at verified
      have answered := Pool.answerOf_eq_some.mp found
      obtain ⟨token, carried, redeemed⟩ :=
        (Links.magicLinks_singleUse Sample.platform_sha256_injective rfl reach).1 2 req user answered
      cases carried.symm.trans verified.1
      exact ⟨state, req, user, reach, answered, redeemed⟩
  · contradiction

end WorkersAuth

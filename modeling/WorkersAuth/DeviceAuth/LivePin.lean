import WorkersAuth.DeviceAuth.PinEnrolment
import WorkersAuth.DeviceAuth.Replacement
import WorkersAuth.DeviceAuth.SecretRotation
import WorkersAuth.Registers.Versions

/-! The live PIN is the one set last.
A login loads the credential, derives for a long time and may then rewrite the material, while PIN
changes commit in between. A rewriting names the credential that was loaded, so one that comes too
late changes nothing, and one in time enrols the PIN that was verified.
-/

namespace WorkersAuth.DeviceAuth

open Atomic Registers Tables

variable {platform : Platform} {cfg : Config} {journal : Journal Op Op.Reply Request}

-----------------------------------------------------------------------------------------
-- The live PIN
-----------------------------------------------------------------------------------------

/-- The id and the material of an account's live PIN. -/
def Database.livePin (db : Database) (accountId : String) : Option (String × JsonObject) :=
  (db.getActiveCredential accountId .pin).map (fun credential => (credential.credentialId, credential.material))

section Rows

variable {db after : Database} {accountId credentialId : String} {material : JsonObject}

/-- Where at most one credential is live, the live PIN is that of the row found active. -/
theorem livePin_eq_some_iff (single : OneLive db)
    : db.livePin accountId = some (credentialId, material)
      ↔ ∃ row, db.creds.find credentialId = some row ∧ Database.activeCredential accountId .pin row
          ∧ row.material = material := by
  constructor
  · intro live
    obtain ⟨credential, loaded, same⟩ := Option.map_eq_some_iff.mp live
    obtain ⟨row, stored, rfl, rfl, type, unrevoked⟩ := getActiveCredential_eq_some loaded
    obtain ⟨rfl, rfl⟩ := Prod.mk.inj same
    exact ⟨row, Table.mem_rows_iff.mp stored, by simp [Database.activeCredential, type, unrevoked], rfl⟩
  · rintro ⟨row, found, active, rfl⟩
    obtain rfl : row.credentialId = credentialId := by simpa using List.find?_some found
    have stored := Table.mem_rows_iff.mpr found
    have only : ∀ other ∈ db.creds.rows.filter (Database.activeCredential accountId .pin), other = row := by
      intro other member
      obtain ⟨there, live⟩ := List.mem_filter.mp member
      simp only [Database.activeCredential, Bool.and_eq_true, decide_eq_true_eq,
        Option.isNone_iff_eq_none] at live active
      exact single other there row stored (live.1.1.trans active.1.1.symm)
        (live.1.2.trans active.1.2.symm) live.2 active.2
    have listed : row ∈ (db.creds.rows.filter (Database.activeCredential accountId .pin)).insertionSort
        (fun first second => first.createdAt ≥ second.createdAt) := by
      rw [List.mem_insertionSort]
      exact List.mem_filter.mpr ⟨stored, active⟩
    obtain ⟨newest, head⟩ := Option.isSome_iff_exists.mp (List.isSome_head?.mpr (List.ne_nil_of_mem listed))
    obtain rfl : newest = row := by
      have member := List.mem_of_head? head
      rw [List.mem_insertionSort] at member
      exact only newest member
    simp only [Database.livePin, Database.getActiveCredential, head, Option.map_some]

/-- The live PIN depends on the credentials alone. -/
theorem livePin_congr (same : after.creds = db.creds) : after.livePin accountId = db.livePin accountId := by
  rw [Database.livePin, Database.livePin, Database.getActiveCredential, Database.getActiveCredential, same]

/-- Only a credential with a free id is stored. -/
theorem fresh_of_replaceCredential {record : CredentialRecord} {options : ReplaceCredentialOptions}
    {result : ReplaceCredentialResult}
    (ran : db.replaceCredential record options = some (result, after))
    : db.creds.find record.credentialId = none := by
  have sameCreds := (revokeOthers_frame db record options
    (db.holdsLive record.accountId record.type)).2.1
  rcases first : db.revokeOthers record options (db.holdsLive record.accountId record.type)
    with ⟨number, revoked⟩
  rw [first] at sameCreds
  rw [replaceCredential_of_revoked first, sameCreds] at ran
  obtain ⟨creds, inserted, _⟩ := Option.map_eq_some_iff.mp ran
  have updated := Table.find_updateWhere db.creds
    (Database.activeCredential record.accountId record.type)
    (fun row => row.revoke record.updatedAt) (fun _ => rfl) record.credentialId
  by_contra taken
  have refused := Table.insert_eq_none_iff.mpr (show ((db.creds.updateWhere
      (Database.activeCredential record.accountId record.type)
      (fun row => row.revoke record.updatedAt)).find record.stored.credentialId).isSome = true by
    rw [show record.stored.credentialId = record.credentialId from rfl, updated, Option.isSome_map]
    exact Option.isSome_iff_ne_none.mpr taken)
  cases refused.symm.trans inserted

/-- A replacement installs its credential for its account and no other. -/
theorem livePin_replaceCredential {record : CredentialRecord} {options : ReplaceCredentialOptions}
    {result : ReplaceCredentialResult} (single : OneLive db) (pin : record.type = .pin)
    (ran : db.replaceCredential record options = some (result, after)) (accountId : String)
    : after.livePin accountId = if record.accountId = accountId then
        some (record.credentialId, record.material) else db.livePin accountId := by
  have fresh := fresh_of_replaceCredential ran
  have lookup := find_replaceCredential ran
  have single_after := replaceCredential_oneLive ran fresh single
  by_cases own : record.accountId = accountId
  · rw [if_pos own, livePin_eq_some_iff single_after, lookup, if_pos rfl]
    exact ⟨_, rfl, by simp [Database.activeCredential, CredentialRecord.stored, own, pin], rfl⟩
  · rw [if_neg own]
    refine Option.ext (fun pair => ?_)
    obtain ⟨credentialId, material⟩ := pair
    rw [livePin_eq_some_iff single_after, livePin_eq_some_iff single, lookup]
    by_cases new : credentialId = record.credentialId
    · rw [if_pos new, new, fresh]
      simp [Database.activeCredential, CredentialRecord.stored, own]
    · rw [if_neg new]
      constructor
      · rintro ⟨row, found, active, same⟩
        obtain ⟨old, stored, changed⟩ := Option.map_eq_some_iff.mp found
        split at changed
        · rw [← changed] at active
          simp [Database.activeCredential, CredentialRow.revoke] at active
        · exact ⟨row, changed ▸ stored, active, same⟩
      · rintro ⟨row, found, active, same⟩
        have other : ¬Database.activeCredential record.accountId record.type row := by
          simp only [Database.activeCredential, Bool.and_eq_true, decide_eq_true_eq] at active ⊢
          exact fun live => own (live.1.1.symm.trans active.1.1)
        exact ⟨row, by rw [found, Option.map_some, if_neg other], active, same⟩

/-- What a use of a credential writes into its row. -/
def CredentialRow.used (now : Millis) (material : Option JsonObject) (row : CredentialRow) : CredentialRow :=
  match material with
  | some material => { row with lastUsedAt := some now, updatedAt := now, material }
  | none => { row with lastUsedAt := some now }

/-- A use of a credential changes its row while it is live. -/
theorem find_markCredentialUsed (db : Database) (used : String) (now : Millis)
    (material : Option JsonObject) (credentialId : String)
    : (db.markCredentialUsed used now material).creds.find credentialId
      = (db.creds.find credentialId).map (fun row =>
          if row.credentialId = used && row.revokedAt.isNone then row.used now material else row) :=
  Table.find_updateWhere _ _ _ (by intro row; cases material <;> rfl) _

/-- A use of a revoked credential changes none. -/
theorem creds_markCredentialUsed_revoked {row : CredentialRow}
    (stored : db.creds.find credentialId = some row) (revoked : row.revokedAt ≠ none) (now : Millis)
    (material : Option JsonObject)
    : (db.markCredentialUsed credentialId now material).creds = db.creds := by
  refine Table.updateWhere_unselected _ (by intro row; cases material <;> rfl) (fun other member => ?_)
  by_cases used : other.credentialId = credentialId
  · obtain rfl := Option.some.inj (stored.symm.trans (used ▸ Table.mem_rows_iff.mp member))
    simp [Option.isSome_iff_ne_none, revoked]
  · simp [used]

/-- A use changes neither whose a credential is nor whether it is live. -/
theorem CredentialRow.used_eq (now : Millis) (material : Option JsonObject) (row : CredentialRow)
    : (row.used now material).accountId = row.accountId ∧ (row.used now material).type = row.type
      ∧ (row.used now material).revokedAt = row.revokedAt
      ∧ (row.used now material).material = material.getD row.material := by
  cases material <;> exact ⟨rfl, rfl, rfl, rfl⟩

/-- A row after a use, and the row it was. -/
theorem of_find_markCredentialUsed {used : String} {now : Millis} {material : Option JsonObject}
    {row : CredentialRow}
    (found : (db.markCredentialUsed used now material).creds.find credentialId = some row)
    : ∃ old, db.creds.find credentialId = some old ∧ row.accountId = old.accountId
        ∧ row.type = old.type ∧ row.revokedAt = old.revokedAt
        ∧ row.material = if credentialId = used ∧ old.revokedAt = none then
            material.getD old.material else old.material := by
  rw [find_markCredentialUsed] at found
  obtain ⟨old, stored, changed⟩ := Option.map_eq_some_iff.mp found
  have key : old.credentialId = credentialId := by simpa using List.find?_some stored
  refine ⟨old, stored, ?_⟩
  obtain ⟨account, type, revoked, enrolled⟩ := old.used_eq now material
  by_cases selected : credentialId = used ∧ old.revokedAt = none
  · rw [if_pos (by simpa [key] using selected)] at changed
    rw [← changed, if_pos selected]
    exact ⟨account, type, revoked, enrolled⟩
  · rw [if_neg (by simpa [key] using selected)] at changed
    rw [← changed, if_neg selected]
    exact ⟨rfl, rfl, rfl, rfl⟩

/-- A use leaves at most one live credential. -/
theorem markCredentialUsed_oneLive (single : OneLive db) (used : String) (now : Millis)
    (material : Option JsonObject)
    : OneLive (db.markCredentialUsed used now material) := by
  intro first firstMember second secondMember account type firstLive secondLive
  have firstFound := Table.mem_rows_iff.mp firstMember
  have secondFound := Table.mem_rows_iff.mp secondMember
  obtain ⟨one, oneFound, oneAccount, oneType, oneLive, _⟩ := of_find_markCredentialUsed firstFound
  obtain ⟨other, otherFound, otherAccount, otherType, otherLive, _⟩ :=
    of_find_markCredentialUsed secondFound
  have same := single one (List.mem_of_find?_eq_some oneFound) other
    (List.mem_of_find?_eq_some otherFound) (oneAccount.symm.trans (account.trans otherAccount))
    (oneType.symm.trans (type.trans otherType)) (oneLive.symm.trans firstLive)
    (otherLive.symm.trans secondLive)
  have firstKey : one.credentialId = first.credentialId := by simpa using List.find?_some oneFound
  have secondKey : other.credentialId = second.credentialId := by simpa using List.find?_some otherFound
  rw [show first.credentialId = second.credentialId from
    firstKey.symm.trans ((congrArg (fun row : CredentialRow => row.credentialId) same).trans secondKey)]
    at firstFound
  exact Option.some.inj (firstFound.symm.trans secondFound)

/-- A use revises the live PIN when it is that of the credential used. -/
theorem livePin_markCredentialUsed (single : OneLive db) (used : String) (now : Millis)
    (material : Option JsonObject) (accountId : String)
    : (db.markCredentialUsed used now material).livePin accountId
      = (db.livePin accountId).map (fun live =>
          if live.1 = used then (live.1, material.getD live.2) else live) := by
  have single_after := markCredentialUsed_oneLive single used now material
  refine Option.ext (fun pair => ?_)
  obtain ⟨credentialId, rewritten⟩ := pair
  rw [livePin_eq_some_iff single_after]
  constructor
  · rintro ⟨row, found, active, rfl⟩
    obtain ⟨old, stored, account, type, revoked, enrolled⟩ := of_find_markCredentialUsed found
    simp only [Database.activeCredential, Bool.and_eq_true, decide_eq_true_eq,
      Option.isNone_iff_eq_none] at active
    have live : db.livePin accountId = some (credentialId, old.material) :=
      (livePin_eq_some_iff single).mpr ⟨old, stored, by
        simp [Database.activeCredential, ← account, ← type, ← revoked, active], rfl⟩
    rw [live, Option.map_some, enrolled]
    by_cases same : credentialId = used
    · simp [same, ← revoked, active.2]
    · simp [same]
  · intro revised
    obtain ⟨⟨id, stored_material⟩, live, same⟩ := Option.map_eq_some_iff.mp revised
    obtain ⟨old, stored, active, rfl⟩ := (livePin_eq_some_iff single).mp live
    obtain rfl : id = credentialId := by
      refine Eq.trans ?_ (congrArg Prod.fst same)
      dsimp only
      split <;> rfl
    have key : old.credentialId = id := by simpa using List.find?_some stored
    have lookup := find_markCredentialUsed db used now material id
    rw [stored, Option.map_some] at lookup
    refine ⟨_, lookup, ?_⟩
    obtain ⟨account, type, revoked, enrolled⟩ := old.used_eq now material
    simp only [Database.activeCredential, Bool.and_eq_true, decide_eq_true_eq,
      Option.isNone_iff_eq_none] at active
    by_cases own : id = used
    · rw [if_pos (by simp [key, own, active.2])]
      rw [if_pos own] at same
      exact ⟨by simp [Database.activeCredential, account, type, revoked, active],
        enrolled.trans (congrArg Prod.snd same)⟩
    · rw [if_neg (by simp [key, own])]
      rw [if_neg own] at same
      exact ⟨by simp [Database.activeCredential, active], congrArg Prod.snd same⟩

end Rows

-----------------------------------------------------------------------------------------
-- What the log tells
-----------------------------------------------------------------------------------------

/-- What a call does to the PIN of an account. -/
def pinEvent (accountId : String) (call : Call Op Op.Reply) : Option (VersionEvent String JsonObject) :=
  match call with
  | ⟨.store (.replaceCredential record _), _⟩ =>
      if record.accountId = accountId then some (.install record.credentialId record.material) else none
  | ⟨.store (.markCredentialUsed credentialId _ (some material)), _⟩ =>
      some (.revise credentialId material)
  | _ => none

/-- What was done to the PIN of an account, oldest first: the one that is live at the start, then what
the log says.
-/
def pinEvents (start : Database) (accountId : String) (log : List (Entry Op Op.Reply))
    : List (VersionEvent String JsonObject) :=
  (start.livePin accountId).toList.map (fun live => .install live.1 live.2)
    ++ log.filterMap (fun entry => pinEvent accountId entry.call)

variable (platform cfg) in
/-- The same PINs match both. -/
def SamePin (first second : JsonObject) : Prop :=
  ∀ pin, isDigits 6 pin →
    (PinMatches platform (cfg.keys platform) pin first
      ↔ PinMatches platform (cfg.keys platform) pin second)

theorem SamePin.refl (material : JsonObject) : SamePin platform cfg material material :=
  fun _ _ => .rfl

theorem SamePin.trans {first second third : JsonObject} (one : SamePin platform cfg first second)
    (other : SamePin platform cfg second third)
    : SamePin platform cfg first third :=
  fun pin digits => (one pin digits).trans (other pin digits)

variable (platform) in
/-- No two PINs derive the same hash. -/
def Injective : Prop :=
  ∀ key salt iterations hash first second, isDigits 6 first → isDigits 6 second
    → platform.pbkdf2 (platform.hmac key first) salt iterations = some hash
    → platform.pbkdf2 (platform.hmac key second) salt iterations = some hash
    → first = second

/-- Material that one PIN matches is matched by that PIN alone. -/
theorem matches_iff (injective : Injective platform) {pin other : String} {material : JsonObject}
    (digits : isDigits 6 pin) (matching : PinMatches platform (cfg.keys platform) pin material)
    (other_digits : isDigits 6 other)
    : PinMatches platform (cfg.keys platform) other material ↔ other = pin :=
  ⟨fun also => pin_unique injective other_digits digits also matching, fun same => same ▸ matching⟩

/-- Two enrolments of one PIN. -/
theorem SamePin.of_matches (injective : Injective platform) {pin : String} {first second : JsonObject}
    (digits : isDigits 6 pin) (one : PinMatches platform (cfg.keys platform) pin first)
    (other : PinMatches platform (cfg.keys platform) pin second)
    : SamePin platform cfg first second :=
  fun _ any => (matches_iff injective digits one any).trans (matches_iff injective digits other any).symm

/-- The credential is kept, with its account and its type. -/
def HoldsPin (db : Database) (accountId credentialId : String) : Prop :=
  ∃ row, db.creds.find credentialId = some row ∧ row.accountId = accountId ∧ row.type = .pin

/-- The live PIN of every account is what the log says was installed last, as it was last revised; and
every revision and every credential that was loaded keeps the PIN that was installed.
-/
structure PinsTold (platform : Platform) (cfg : Config) (start db : Database)
    (uses : List (Journal Op Op.Reply Request)) (log : List (Entry Op Op.Reply))
    : Prop where
  recorded : ∀ journal ∈ uses, ∀ call ∈ journal.history, ∃ thread, ⟨thread, call⟩ ∈ log
  single : OneLive db
  stored : ∀ accountId credentialId material,
    .install credentialId material ∈ pinEvents start accountId log → HoldsPin db accountId credentialId
  once : ∀ accountId other credentialId first second,
    .install credentialId first ∈ pinEvents start accountId log
    → .install credentialId second ∈ pinEvents start other log
    → accountId = other ∧ first = second
  told : ∀ accountId, db.livePin accountId = current (pinEvents start accountId log)
  loaded : ∀ thread accountId credential,
    ⟨thread, .store (.getActiveCredential accountId .pin), some credential⟩ ∈ log
    → ∃ first, .install credential.credentialId first ∈ pinEvents start accountId log
        ∧ SamePin platform cfg first credential.material
  honest : ∀ accountId, Honest (SamePin platform cfg) (pinEvents start accountId log)

section Step

variable {start db after : Database} {uses : List (Journal Op Op.Reply Request)}
  {log : List (Entry Op Op.Reply)}

theorem pinEvents_append (accountId : String) (log : List (Entry Op Op.Reply)) (entry : Entry Op Op.Reply)
    : pinEvents start accountId (log ++ [entry])
      = pinEvents start accountId log ++ (pinEvent accountId entry.call).toList := by
  rw [pinEvents, pinEvents, List.filterMap_append, List.append_assoc]
  cases told : pinEvent accountId entry.call <;> simp [told]

/-- What is live at the start counts as installed. -/
theorem install_start {accountId credentialId : String} {material : JsonObject}
    : .install credentialId material ∈ pinEvents start accountId []
      ↔ start.livePin accountId = some (credentialId, material) := by
  cases live : start.livePin accountId with
  | none => simp [pinEvents, live]
  | some pair =>
      obtain ⟨id, stored⟩ := pair
      simp [pinEvents, live, eq_comm]

/-- Before anything has happened. -/
theorem PinsTold.initially (single : OneLive start) : PinsTold platform cfg start start [] [] := by
  constructor
  case recorded => simp
  case single => exact single
  case stored =>
    intro accountId credentialId material member
    obtain ⟨row, found, active, -⟩ := (livePin_eq_some_iff single).mp (install_start.mp member)
    simp only [Database.activeCredential, Bool.and_eq_true, decide_eq_true_eq] at active
    exact ⟨row, found, active.1⟩
  case once =>
    intro accountId other credentialId first second one two
    obtain ⟨row, found, active, rfl⟩ := (livePin_eq_some_iff single).mp (install_start.mp one)
    obtain ⟨same, refound, also, rfl⟩ := (livePin_eq_some_iff single).mp (install_start.mp two)
    obtain rfl := Option.some.inj (found.symm.trans refound)
    simp only [Database.activeCredential, Bool.and_eq_true, decide_eq_true_eq] at active also
    exact ⟨active.1.1.symm.trans also.1.1, rfl⟩
  case told =>
    intro accountId
    cases live : start.livePin accountId with
    | none => simp [pinEvents, live, current]
    | some pair => simp [pinEvents, live, current, VersionEvent.apply]
  case loaded => simp
  case honest =>
    intro accountId before version value after split
    have member : .revise version value ∈ pinEvents start accountId [] := by simp [split]
    simp [pinEvents] at member

/-- A request that has just arrived has no history. -/
theorem PinsTold.arrive (told : PinsTold platform cfg start db uses log) (request : Request)
    : PinsTold platform cfg start db (uses ++ [⟨request, []⟩]) log :=
  { told with
    recorded := by
      intro journal member call made
      rcases List.mem_append.mp member with old | new
      · exact told.recorded journal old call made
      · obtain rfl := List.mem_singleton.mp new
        exact absurd made List.not_mem_nil }

/-- A call is in the log when it is in the history of the request that made it. -/
theorem recorded_set {index : Nat}
    (recorded : ∀ journal ∈ uses, ∀ call ∈ journal.history, ∃ thread, ⟨thread, call⟩ ∈ log)
    (found : uses[index]? = some journal) (op : Op) (reply : op.Reply)
    : ∀ one ∈ uses.set index (journal.write op reply), ∀ call ∈ one.history,
        ∃ thread, ⟨thread, call⟩ ∈ log ++ [⟨index, op, reply⟩] := by
  intro one member call made
  have before {other : Journal Op Op.Reply Request} (there : other ∈ uses)
      (earlier : call ∈ other.history)
      : ∃ thread, ⟨thread, call⟩ ∈ log ++ [⟨index, op, reply⟩] := by
    obtain ⟨thread, logged⟩ := recorded other there call earlier
    exact ⟨thread, List.mem_append_left _ logged⟩
  rcases List.mem_or_eq_of_mem_set member with old | rfl
  · exact before old made
  · rcases List.mem_append.mp made with old | new
    · exact before (List.mem_of_getElem? found) old
    · obtain rfl := List.mem_singleton.mp new
      exact ⟨index, List.mem_append_right _ (List.mem_singleton_self _)⟩

/-- A use of a credential keeps every credential. -/
theorem HoldsPin.used {accountId credentialId : String} (holds : HoldsPin db accountId credentialId)
    (used : String) (now : Millis) (material : Option JsonObject)
    : HoldsPin (db.markCredentialUsed used now material) accountId credentialId := by
  obtain ⟨row, found, account, type⟩ := holds
  have lookup := find_markCredentialUsed db used now material credentialId
  rw [found, Option.map_some] at lookup
  obtain ⟨same_account, same_type, _⟩ := row.used_eq now material
  refine ⟨_, lookup, ?_⟩
  split
  · exact ⟨same_account.trans account, same_type.trans type⟩
  · exact ⟨account, type⟩

/-- A call that changes no live PIN; a credential it loads is the live one. -/
theorem PinsTold.quiet {index : Nat} {op : Op} {reply : op.Reply}
    (told : PinsTold platform cfg start db uses log) (found : uses[index]? = some journal)
    (untold : ∀ accountId, pinEvent accountId ⟨op, reply⟩ = none)
    (single : OneLive after)
    (kept : ∀ accountId credentialId, HoldsPin db accountId credentialId → HoldsPin after accountId credentialId)
    (same : ∀ accountId, after.livePin accountId = db.livePin accountId)
    (loads : ∀ accountId credential, (⟨op, reply⟩ : Call Op Op.Reply)
        = ⟨.store (.getActiveCredential accountId .pin), some credential⟩
      → db.getActiveCredential accountId .pin = some credential)
    : PinsTold platform cfg start after (uses.set index (journal.write op reply))
        (log ++ [⟨index, op, reply⟩]) := by
  have events (accountId : String)
      : pinEvents start accountId (log ++ [⟨index, op, reply⟩]) = pinEvents start accountId log := by
    rw [pinEvents_append, untold]
    exact List.append_nil _
  constructor
  case recorded => exact recorded_set told.recorded found op reply
  case single => exact single
  case stored =>
    intro accountId credentialId material installs
    rw [events] at installs
    exact kept accountId credentialId (told.stored accountId credentialId material installs)
  case once =>
    intro accountId other credentialId first second
    rw [events, events]
    exact told.once accountId other credentialId first second
  case told =>
    intro accountId
    rw [events, same, told.told]
  case loaded =>
    intro thread accountId credential logged
    rw [events]
    rcases List.mem_append.mp logged with old | new
    · exact told.loaded thread accountId credential old
    · have live := loads accountId credential
        (congrArg Entry.call (List.mem_singleton.mp new)).symm
      have now : current (pinEvents start accountId log)
          = some (credential.credentialId, credential.material) := by
        rw [← told.told, Database.livePin, live, Option.map_some]
      obtain ⟨first, last, keeps⟩ := (told.honest accountId).current_keeps .refl now
      obtain ⟨before, following, split, _⟩ := installed_split last
      exact ⟨first, by simp [split], keeps⟩
  case honest =>
    intro accountId
    rw [events]
    exact told.honest accountId

/-- A replacement installs a PIN under an id that was free. -/
theorem PinsTold.replaces {index : Nat} {record : CredentialRecord} {options : ReplaceCredentialOptions}
    {result : ReplaceCredentialResult}
    (told : PinsTold platform cfg start db uses log) (found : uses[index]? = some journal)
    (pin : record.type = .pin) (ran : db.replaceCredential record options = some (result, after))
    : PinsTold platform cfg start after
        (uses.set index (journal.write (.store (.replaceCredential record options)) result))
        (log ++ [⟨index, .store (.replaceCredential record options), result⟩]) := by
  have fresh := fresh_of_replaceCredential ran
  have lookup := find_replaceCredential ran
  have events (accountId : String)
      : pinEvents start accountId (log ++ [⟨index, .store (.replaceCredential record options), result⟩])
        = pinEvents start accountId log ++ (if record.accountId = accountId then
            [.install record.credentialId record.material] else []) := by
    rw [pinEvents_append, pinEvent]
    split <;> rfl
  -- an installation is an earlier one or that of the record
  have installs {accountId credentialId : String} {material : JsonObject}
      (member : .install credentialId material ∈
        pinEvents start accountId (log ++ [⟨index, .store (.replaceCredential record options), result⟩]))
      : (.install credentialId material ∈ pinEvents start accountId log ∧ credentialId ≠ record.credentialId)
        ∨ (record.accountId = accountId ∧ credentialId = record.credentialId
          ∧ material = record.material) := by
    rw [events, List.mem_append] at member
    rcases member with old | new
    · refine .inl ⟨old, ?_⟩
      rintro rfl
      obtain ⟨row, taken, _⟩ := told.stored _ _ _ old
      cases fresh.symm.trans taken
    · split at new
      · next own =>
          cases List.mem_singleton.mp new
          exact .inr ⟨own, rfl, rfl⟩
      · exact absurd new List.not_mem_nil
  have still {accountId : String} {event : VersionEvent String JsonObject}
      (old : event ∈ pinEvents start accountId log)
      : event ∈ pinEvents start accountId
          (log ++ [⟨index, .store (.replaceCredential record options), result⟩]) := by
    rw [events]
    exact List.mem_append_left _ old
  constructor
  case recorded => exact recorded_set told.recorded found _ _
  case single => exact replaceCredential_oneLive ran fresh told.single
  case stored =>
    intro accountId credentialId material member
    rcases installs member with ⟨old, other⟩ | ⟨own, rfl, -⟩
    · obtain ⟨row, taken, account, type⟩ := told.stored _ _ _ old
      have moved := lookup credentialId
      rw [if_neg other, taken, Option.map_some] at moved
      refine ⟨_, moved, ?_⟩
      split <;> exact ⟨account, type⟩
    · exact ⟨_, (lookup record.credentialId).trans (if_pos rfl), own, pin⟩
  case once =>
    intro accountId other credentialId first second one two
    rcases installs one with ⟨old, differs⟩ | ⟨own, same, first_eq⟩
    · rcases installs two with ⟨older, -⟩ | ⟨-, same, -⟩
      · exact told.once _ _ _ _ _ old older
      · exact absurd same differs
    · rcases installs two with ⟨-, differs⟩ | ⟨mine, -, second_eq⟩
      · exact absurd same differs
      · exact ⟨own.symm.trans mine, first_eq.trans second_eq.symm⟩
  case told =>
    intro accountId
    rw [events, livePin_replaceCredential told.single pin ran]
    split
    · rw [current_append]
      rfl
    · rw [List.append_nil, told.told]
  case loaded =>
    intro thread accountId credential logged
    rcases List.mem_append.mp logged with old | new
    · obtain ⟨first, installed, keeps⟩ := told.loaded _ _ _ old
      exact ⟨first, still installed, keeps⟩
    · cases List.mem_singleton.mp new
  case honest =>
    intro accountId
    rw [events]
    split
    · exact (told.honest accountId).append (fun _ _ same => by cases same)
    · rw [List.append_nil]
      exact told.honest accountId

/-- A rewriting keeps the PIN of the credential it was computed from. -/
theorem PinsTold.revises (injective : Injective platform) {index : Nat} {used : String} {now : Millis}
    {material : JsonObject}
    (told : PinsTold platform cfg start db uses log) (found : uses[index]? = some journal)
    (allowed : pinProtocol platform cfg journal (.store (.markCredentialUsed used now (some material))))
    : PinsTold platform cfg start (db.markCredentialUsed used now (some material))
        (uses.set index (journal.write (.store (.markCredentialUsed used now (some material))) ()))
        (log ++ [⟨index, .store (.markCredentialUsed used now (some material)), ()⟩]) := by
  have events (accountId : String)
      : pinEvents start accountId (log ++ [⟨index, .store (.markCredentialUsed used now (some material)), ()⟩])
        = pinEvents start accountId log ++ [.revise used material] :=
    pinEvents_append ..
  have installs {accountId credentialId : String} {value : JsonObject}
      (member : .install credentialId value ∈ pinEvents start accountId
        (log ++ [⟨index, .store (.markCredentialUsed used now (some material)), ()⟩]))
      : .install credentialId value ∈ pinEvents start accountId log := by
    rw [events, List.mem_append] at member
    rcases member with old | new
    · exact old
    · cases List.mem_singleton.mp new
  constructor
  case recorded => exact recorded_set told.recorded found _ _
  case single => exact markCredentialUsed_oneLive told.single used now _
  case stored =>
    intro accountId credentialId value member
    exact (told.stored _ _ _ (installs member)).used used now _
  case once =>
    intro accountId other credentialId first second one two
    exact told.once _ _ _ _ _ (installs one) (installs two)
  case told =>
    intro accountId
    rw [events, current_append, ← told.told, livePin_markCredentialUsed told.single,
      VersionEvent.apply]
    cases live : db.livePin accountId with
    | none => simp
    | some pair =>
        by_cases same : pair.1 = used
        · simp [same]
        · simp [same]
  case loaded =>
    intro thread accountId credential logged
    rcases List.mem_append.mp logged with old | new
    · obtain ⟨first, installed, keeps⟩ := told.loaded _ _ _ old
      refine ⟨first, ?_, keeps⟩
      rw [events]
      exact List.mem_append_left _ installed
    · cases List.mem_singleton.mp new
  case honest =>
    intro accountId
    rw [events]
    refine (told.honest accountId).append (fun credentialId value same first installed => ?_)
    obtain ⟨rfl, rfl⟩ : used = credentialId ∧ material = value := by
      cases same
      exact ⟨rfl, rfl⟩
    obtain ⟨owner, credential, pin, read, rfl, digits, matching, enrols⟩ := allowed
    obtain ⟨thread, logged⟩ := told.recorded _ (List.mem_of_getElem? found) _ read
    obtain ⟨earlier, its, keeps⟩ := told.loaded _ _ _ logged
    obtain ⟨rfl, rfl⟩ := told.once _ _ _ _ _ installed its
    exact keeps.trans (.of_matches injective digits matching enrols)

/-- A call outside the credentials changes no live PIN. -/
theorem PinsTold.frame {index : Nat} {op : Op} {reply : op.Reply}
    (told : PinsTold platform cfg start db uses log) (found : uses[index]? = some journal)
    (same : after.creds = db.creds) (untold : ∀ accountId, pinEvent accountId ⟨op, reply⟩ = none)
    (loads : ∀ accountId credential, (⟨op, reply⟩ : Call Op Op.Reply)
        = ⟨.store (.getActiveCredential accountId .pin), some credential⟩
      → db.getActiveCredential accountId .pin = some credential)
    : PinsTold platform cfg start after (uses.set index (journal.write op reply))
        (log ++ [⟨index, op, reply⟩]) := by
  refine told.quiet found untold ?_ ?_ (fun _ => livePin_congr same) loads
  · rw [OneLive, same]
    exact told.single
  · rintro accountId credentialId ⟨row, kept, owned⟩
    exact ⟨row, by rwa [same], owned⟩

/-- Every store call the protocol allows, by cases on the call. -/
theorem PinsTold.call (injective : Injective platform) {index : Nat} {call : StoreCall} {reply : call.Reply}
    (told : PinsTold platform cfg start db uses log) (found : uses[index]? = some journal)
    (allowed : pinProtocol platform cfg journal (.store call)) (ran : call.run db = some (reply, after))
    : PinsTold platform cfg start after (uses.set index (journal.write (.store call) reply))
        (log ++ [⟨index, .store call, reply⟩]) := by
  cases call with
  | replaceCredential record options => exact told.replaces found allowed.1 ran
  | markCredentialUsed used now material =>
      cases ran
      cases material with
      | some material => exact told.revises injective found allowed
      | none =>
          refine told.quiet found (fun _ => rfl) (markCredentialUsed_oneLive told.single used now _)
            (fun _ _ holds => holds.used used now _) (fun accountId => ?_) (fun _ _ same => by cases same)
          rw [livePin_markCredentialUsed told.single]
          cases db.livePin accountId with
          | none => rfl
          | some pair => simp
  | getActiveCredential owner type =>
      obtain ⟨read, rfl⟩ := Prod.mk.inj (Option.some.inj ran)
      refine told.frame found rfl (fun _ => rfl) (fun accountId credential same => ?_)
      cases same
      exact read
  | _ => exact told.frame found (StoreCall.creds_eq ran id) (fun _ => rfl) (fun _ _ same => by cases same)

end Step

-----------------------------------------------------------------------------------------
-- Every reachable state
-----------------------------------------------------------------------------------------

section Reachable

variable {σ : Type} {sessions : Semantics SessionCall SessionCall.Reply σ} {world : World σ}
  {pool next : Pool Op Op.Reply (World σ) Request Response}

theorem pinMonitor_faithful
    : (deviceAuth platform cfg sessions).Faithful (pinMonitor platform cfg) :=
  fun op before reply after executes =>
    @mintMonitor_faithful platform cfg _ _ op before reply after executes

/-- The log tells the live PINs in every reachable state, by the invariant rule. -/
theorem reachable_pinsTold (writes : StandardBtoa platform) (reads : StandardAtob platform)
    (injective : Injective platform) (single : OneLive world.db)
    (reach : (deviceAuth platform cfg sessions).Reachable world pool)
    : PinsTold platform cfg world.db pool.world.db
        (pool.ghosts (pinMonitor platform cfg) (fun request => ⟨request, []⟩)) pool.log := by
  refine reach.invariant pinMonitor_faithful (handle_pins writes reads)
    (fun now uses log => PinsTold platform cfg world.db now.db uses log) (.initially single)
    (fun _ _ _ request told => told.arrive request) ?_
  intro now uses log index journal op reply after found allowed executes told
  rcases op with call | call | call
  · exact told.call injective found allowed executes.1
  · exact told.frame found (congrArg _ executes.2) (fun _ => rfl) (fun _ _ same => by cases same)
  · exact told.frame found (congrArg (fun world => world.db.creds) executes.2) (fun _ => rfl)
      (fun _ _ same => by cases same)

/-- The call replaces the PIN of this account. -/
def replacesPin (accountId : String) : Op → Bool
  | .store (.replaceCredential record _) => record.accountId = accountId
  | _ => false

/-- The account's PIN was last replaced under this id, for a `POST /pin` that was sent this PIN. -/
def LastSet (pool : Pool Op Op.Reply (World σ) Request Response) (accountId credentialId pin : String)
    : Prop :=
  ∃ before thread record options result after req,
    pool.log = before ++ ⟨thread, .store (.replaceCredential record options), result⟩ :: after
    ∧ record.accountId = accountId ∧ record.credentialId = credentialId
    ∧ (∀ entry ∈ after, ¬replacesPin accountId entry.call.op)
    ∧ pool.requestOf thread = some (.setPin req) ∧ isPinFormat (req.field "pin") = some pin

/-- Of all PINs this one alone matches the material. -/
def EnrolsOnly (platform : Platform) (cfg : Config) (pin : String) (material : JsonObject) : Prop :=
  ∀ other, isDigits 6 other → (PinMatches platform (cfg.keys platform) other material ↔ other = pin)

/-- An installation told by a call is a replacement. -/
theorem pinEvent_eq_install {accountId credentialId : String} {material : JsonObject}
    {call : Call Op Op.Reply} (told : pinEvent accountId call = some (.install credentialId material))
    : ∃ record options, call.op = .store (.replaceCredential record options)
        ∧ record.accountId = accountId ∧ record.credentialId = credentialId
        ∧ record.material = material := by
  obtain ⟨op, reply⟩ := call
  rcases op with call | call | call
  · cases call with
    | replaceCredential record options =>
        simp only [pinEvent, Option.ite_none_right_eq_some] at told
        obtain ⟨own, same⟩ := told
        cases same
        exact ⟨record, options, rfl, own, rfl, rfl⟩
    | markCredentialUsed used now material =>
        cases material <;> simp [pinEvent] at told
    | _ => simp [pinEvent] at told
  · simp [pinEvent] at told
  · simp [pinEvent] at told

/-- A replacement is told as an installation. -/
theorem install_of_replacesPin {accountId : String} {call : Call Op Op.Reply}
    (replaces : replacesPin accountId call.op)
    : ∃ credentialId material, pinEvent accountId call = some (.install credentialId material) := by
  obtain ⟨op, reply⟩ := call
  rcases op with call | call | call
  · cases call with
    | replaceCredential record options => exact ⟨_, _, if_pos (of_decide_eq_true replaces)⟩
    | _ => cases replaces
  · cases replaces
  · cases replaces

/-- In every reachable state, what is installed last was live at the start, and nothing was replaced
since, or it is of the last replacement, and of the PIN sent for it.
-/
theorem installed_lastSet (writes : StandardBtoa platform) (reads : StandardAtob platform)
    (injective : Injective platform) {start : Database}
    (reach : (deviceAuth platform cfg sessions).Reachable world pool)
    {accountId credentialId : String} {first : JsonObject}
    (last : installed (pinEvents start accountId pool.log) = some (credentialId, first))
    : (start.livePin accountId = some (credentialId, first)
        ∧ ∀ entry ∈ pool.log, ¬replacesPin accountId entry.call.op)
      ∨ ∃ pin, LastSet pool accountId credentialId pin ∧ EnrolsOnly platform cfg pin first := by
  have quiet_of {entries : List (Entry Op Op.Reply)}
      (quiet : ∀ event ∈ entries.filterMap (fun entry => pinEvent accountId entry.call),
        ∀ other value, event ≠ .install other value)
      : ∀ entry ∈ entries, ¬replacesPin accountId entry.call.op := by
    intro entry member replaces
    obtain ⟨other, value, told⟩ := install_of_replacesPin replaces
    exact quiet _ (List.mem_filterMap.mpr ⟨entry, member, told⟩) other value rfl
  obtain ⟨before, after, split, quiet⟩ := installed_split last
  -- an installation that the log tells is a replacement, made for a `POST /pin`
  have told {told : List (VersionEvent String JsonObject)}
      (made : pool.log.filterMap (fun entry => pinEvent accountId entry.call)
        = told ++ .install credentialId first :: after)
      : ∃ pin, LastSet pool accountId credentialId pin ∧ EnrolsOnly platform cfg pin first := by
    obtain ⟨earlier, later, log_eq, -, rest⟩ := List.filterMap_eq_append_iff.mp made
    obtain ⟨skipped, ⟨thread, op, result⟩, following, later_eq, -, installs, following_eq⟩ :=
      List.filterMap_eq_cons_iff.mp rest
    obtain ⟨record, options, rfl, own, rfl, rfl⟩ := pinEvent_eq_install installs
    rw [later_eq, ← List.append_assoc] at log_eq
    obtain ⟨request, _, _, made⟩ := reach.made pinMonitor_faithful (handle_pins writes reads) log_eq
    obtain ⟨-, req, pin, sent, pin_eq, matching⟩ := made.allowed
    have digits : isDigits 6 pin := (Option.filter_eq_some_iff.mp pin_eq).2
    exact ⟨pin, ⟨_, thread, record, options, result, following, req, log_eq, own, rfl,
        quiet_of (following_eq ▸ quiet), made.serves.trans (congrArg some sent), pin_eq⟩,
      fun _ any => matches_iff injective digits matching any⟩
  rcases List.append_eq_append_iff.mp split with ⟨told_before, -, made⟩ | ⟨kept, start_eq, made⟩
  · exact .inr (told made)
  cases kept with
  | nil => exact .inr (@told [] made.symm)
  | cons event kept =>
      obtain ⟨rfl, rfl⟩ := List.cons.inj made
      have live : .install credentialId first ∈ pinEvents start accountId [] := by
        rw [pinEvents, start_eq]
        simp
      exact .inl ⟨install_start.mp live,
        quiet_of (fun event member => quiet event (List.mem_append_right _ member))⟩

/-- An account has a live PIN when it had one at the start or one was set since. -/
theorem PinsTold.isSome_iff {start db : Database} {uses : List (Journal Op Op.Reply Request)}
    {log : List (Entry Op Op.Reply)} (told : PinsTold platform cfg start db uses log) (accountId : String)
    : (db.getActiveCredential accountId .pin).isSome
      ↔ (start.getActiveCredential accountId .pin).isSome
        ∨ ∃ entry ∈ log, replacesPin accountId entry.call.op := by
  have live_isSome (db : Database)
      : (db.getActiveCredential accountId .pin).isSome = (db.livePin accountId).isSome := by
    rw [Database.livePin, Option.isSome_map]
  rw [live_isSome, live_isSome, told.told, current_isSome_iff]
  constructor
  · rintro ⟨credentialId, material, installs⟩
    rcases List.mem_append.mp installs with old | new
    · obtain ⟨live, member, -⟩ := List.mem_map.mp old
      exact .inl (Option.isSome_iff_exists.mpr ⟨live, Option.mem_toList.mp member⟩)
    · obtain ⟨entry, logged, installs⟩ := List.mem_filterMap.mp new
      obtain ⟨record, options, op_eq, own, -⟩ := pinEvent_eq_install installs
      refine .inr ⟨entry, logged, ?_⟩
      rw [op_eq]
      exact decide_eq_true own
  · rintro (live | ⟨entry, logged, replaces⟩)
    · obtain ⟨⟨credentialId, material⟩, live⟩ := Option.isSome_iff_exists.mp live
      exact ⟨credentialId, material, List.mem_append_left _
        (List.mem_map.mpr ⟨_, Option.mem_toList.mpr live, rfl⟩)⟩
    · obtain ⟨credentialId, material, installs⟩ := install_of_replacesPin replaces
      exact ⟨credentialId, material, List.mem_append_right _
        (List.mem_filterMap.mpr ⟨entry, logged, installs⟩)⟩

/-- A rewriting that changes anything was computed from the credential that is still live: of another
it finds no unrevoked row.
-/
theorem rewrites_live (writes : StandardBtoa platform) (reads : StandardAtob platform)
    (injective : Injective platform) (single : OneLive world.db)
    (reach : (deviceAuth platform cfg sessions).Reachable world pool) {index : Nat} {used : String}
    {now : Millis} {material : JsonObject}
    (performs : (deviceAuth platform cfg sessions).Performs pool
      ⟨index, .store (.markCredentialUsed used now (some material)), ()⟩ next)
    (changes : next.world.db.creds ≠ pool.world.db.creds)
    : ∃ accountId loaded live,
        ⟨.store (.getActiveCredential accountId .pin), some loaded⟩ ∈ pool.history index
        ∧ loaded.credentialId = used
        ∧ pool.world.db.getActiveCredential accountId .pin = some live ∧ live.credentialId = used := by
  have told := reachable_pinsTold writes reads injective single reach
  obtain ⟨request, rest, found, -⟩ := performs.progress_eq
  have obeying := reach.obeys pinMonitor_faithful (handle_pins writes reads) _
    (List.mem_of_getElem? found)
  rw [Monitor.journal_track, List.nil_append] at obeying
  obtain ⟨accountId, loaded, pin, read, rfl, -⟩ := obeying.1
  obtain ⟨first, installs, -⟩ := told.loaded _ _ _ (Service.mem_history.mp read)
  obtain ⟨row, stored, account, type⟩ := told.stored _ _ _ installs
  have unrevoked : row.revokedAt = none := by
    by_contra revoked
    refine changes ?_
    rw [← (Prod.mk.inj (Option.some.inj performs.executes.1)).2]
    exact creds_markCredentialUsed_revoked stored revoked now _
  have live : pool.world.db.livePin accountId = some (loaded.credentialId, row.material) :=
    (livePin_eq_some_iff told.single).mpr
      ⟨row, stored, by simp [Database.activeCredential, account, type, unrevoked], rfl⟩
  obtain ⟨credential, active, same⟩ := Option.map_eq_some_iff.mp live
  exact ⟨accountId, loaded, credential, read, rfl, active, (Prod.mk.inj same).1⟩

/-- The live PIN is always the one set last, in any interleaving of PIN changes and logins. An account
has at most one live PIN. Its material is matched by exactly the PINs that matched it at the start while
none was set since, and by exactly the PIN sent for the last replacement afterwards. A rewriting
computed from a credential that has been replaced since changes no credential.
-/
theorem livePin_lastSet (writes : StandardBtoa platform) (reads : StandardAtob platform)
    (injective : Injective platform) (single : OneLive world.db)
    (reach : (deviceAuth platform cfg sessions).Reachable world pool)
    : OneLive pool.world.db
      ∧ (∀ accountId, (pool.world.db.getActiveCredential accountId .pin).isSome
          ↔ (world.db.getActiveCredential accountId .pin).isSome
            ∨ ∃ entry ∈ pool.log, replacesPin accountId entry.call.op)
      ∧ (∀ accountId credential, pool.world.db.getActiveCredential accountId .pin = some credential →
          (∃ first, world.db.getActiveCredential accountId .pin = some first
            ∧ first.credentialId = credential.credentialId
            ∧ SamePin platform cfg first.material credential.material
            ∧ ∀ entry ∈ pool.log, ¬replacesPin accountId entry.call.op)
          ∨ ∃ pin, LastSet pool accountId credential.credentialId pin
            ∧ EnrolsOnly platform cfg pin credential.material)
      ∧ ∀ index used now material next,
          (deviceAuth platform cfg sessions).Performs pool
            ⟨index, .store (.markCredentialUsed used now (some material)), ()⟩ next
          → next.world.db.creds ≠ pool.world.db.creds
          → ∃ accountId loaded live,
              ⟨.store (.getActiveCredential accountId .pin), some loaded⟩ ∈ pool.history index
              ∧ loaded.credentialId = used
              ∧ pool.world.db.getActiveCredential accountId .pin = some live
              ∧ live.credentialId = used := by
  have told := reachable_pinsTold writes reads injective single reach
  refine ⟨told.single, told.isSome_iff, fun accountId credential loaded => ?_,
    fun _ _ _ _ _ performs changes => rewrites_live writes reads injective single reach performs changes⟩
  have now : current (pinEvents world.db accountId pool.log)
      = some (credential.credentialId, credential.material) := by
    rw [← told.told, Database.livePin, loaded, Option.map_some]
  obtain ⟨first, last, keeps⟩ := (told.honest accountId).current_keeps .refl now
  rcases installed_lastSet writes reads injective reach last with ⟨live, quiet⟩ | ⟨pin, set, only⟩
  · obtain ⟨old, old_eq, same⟩ := Option.map_eq_some_iff.mp live
    obtain ⟨same_id, rfl⟩ := Prod.mk.inj same
    exact .inl ⟨old, old_eq, same_id, keeps, quiet⟩
  · exact .inr ⟨pin, set, fun other digits => (keeps other digits).symm.trans (only other digits)⟩

end Reachable

open Sample in
/-- No two PINs have one hash on the sample platform. -/
theorem rotatingPlatform_injective : Injective rotatingPlatform := by
  intro key salt iterations hash first second _ _ derives same
  have equal := Option.some.inj (derives.trans same.symm)
  have hmac_eq : rotatingPlatform.hmac key first = rotatingPlatform.hmac key second := by
    have long (input : Bytes × Bytes × ℚ) : 32 < (List.replicate 33 0 ++ input.1).length := by
      simp only [List.length_append, List.length_replicate]
      omega
    rcases recorded_eq (by decide +kernel) (by decide +kernel) long equal with equal | equal
    · exact congrArg Prod.fst equal
    · exact List.append_cancel_left equal
  have long (input : Bytes × String) : 32 < (longText input.2).length := by
    simp only [longText, List.length_append, List.length_replicate]
    omega
  rcases recorded_eq (by decide +kernel) (by decide +kernel) long hmac_eq with equal | equal
  · exact congrArg Prod.snd equal
  · exact longText_injective equal

/-- What is stored as the iterations of the account's live PIN. -/
def Database.liveIterations (db : Database) (accountId : String) : Option ℚ :=
  (db.getActiveCredential accountId .pin).bind (fun credential =>
    (pinMaterial? credential.material).map PinMaterial.iterations)

open Sample in
/-- A login on the sample device enrols the PIN again at the cost configured now, and the same PINs match
it as before.
-/
theorem livePin_lastSet_played
    : ∃ state first credential,
        (deviceAuth rotatingPlatform config memorySessions).Reachable enrolledEarlier state
        ∧ enrolledEarlier.db.getActiveCredential "user_42" .pin = some first
        ∧ state.world.db.getActiveCredential "user_42" .pin = some credential
        ∧ first.material ≠ credential.material
        ∧ SamePin rotatingPlatform config first.material credential.material := by
  have passes : ((deviceAuth rotatingPlatform config memorySessions).play
      (compute rotatingPlatform users) (fun _ _ => true) (.start enrolledEarlier)
      (.arrive (loginRequest pin) :: Move.times 12 0 { now := 1000, seed := 0x30 })).any
        (fun state => state.world.db.liveIterations "user_42" = some 1000
          && state.log.all (fun entry => !replacesPin "user_42" entry.call.op)) = true := by
    decide +kernel
  obtain ⟨state, played, checked⟩ := (Option.any_eq_true ..).mp passes
  have reach := Service.reachable_of_play (compute_sound rotatingPlatform users) played
  obtain ⟨rewritten, kept⟩ := (Bool.and_eq_true ..).mp checked
  have single : OneLive enrolledEarlier.db := by
    intro first first_mem second second_mem _ _ _ _
    exact (List.mem_singleton.mp first_mem).trans (List.mem_singleton.mp second_mem).symm
  obtain ⟨credential, loaded, cost⟩ := Option.bind_eq_some_iff.mp (of_decide_eq_true rewritten)
  obtain ⟨-, -, live, -⟩ := livePin_lastSet rotating_documented.btoa rotating_documented.atob
    rotatingPlatform_injective single reach
  rcases live "user_42" credential loaded with ⟨first, start, -, same, -⟩ | ⟨_, set, -⟩
  · refine ⟨state, first, credential, reach, start, loaded, fun unchanged => ?_, same⟩
    have earlier : enrolledEarlier.db.liveIterations "user_42" = some 2000 := by decide +kernel
    rw [Database.liveIterations, start, Option.bind_some, unchanged, cost] at earlier
    exact absurd earlier (by decide)
  · obtain ⟨before, thread, record, options, result, after, req, log_eq, own, -⟩ := set
    have none := List.all_eq_true.mp kept
      ⟨thread, .store (.replaceCredential record options), result⟩ (by simp [log_eq])
    simp [replacesPin, own] at none

end WorkersAuth.DeviceAuth

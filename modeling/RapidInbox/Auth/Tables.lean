import RapidInbox.Auth.Permissions
import RapidInbox.Lib.Table

/-!
# The tables of administrators and keys

`admins`, `admin_sessions`, `api_keys` and the scope and grant tables of `sqlite_schema.sql`, with the
statements `app/auth` writes them with.  Of `domains` only the ids matter here.

Columns that only displays read (`last_login_at`, `last_used_at`, `last_ip`, `user_agent`,
`description`, the times of creation) are left out.
-/

namespace RapidInbox

open Table

/-- A row of `admins`. -/
structure AdminRow where
  id : Nat
  username : Text
  displayName : Option Text
  passwordHash : Text
  role : AdminRole
  isActive : Bool
  mustChangePassword : Bool
  deriving DecidableEq, Repr

/-- A row of `admin_sessions`. -/
structure AdminSessionRow where
  id : Text
  adminId : Nat
  sessionTokenHash : Text
  createdAt : Timestamp
  expiresAt : Timestamp
  revokedAt : Option Timestamp
  deriving DecidableEq, Repr

/-- `api_keys.status`. -/
inductive ApiKeyStatus where
  | active
  | revoked
  | expired
  | disabled
  deriving DecidableEq, Repr

/-- The column `api_keys.allowed_ip_cidrs`, as its readers tell its contents apart: empty or `NULL`,
    no JSON, a JSON string, a JSON list, or another JSON value. -/
inductive AllowedIpCidrs where
  | absent
  | malformed
  | single (text : Text)
  | list (items : List Text)
  | other
  deriving DecidableEq, Repr

/-- A row of `api_keys`. -/
structure ApiKeyRow where
  id : Nat
  publicId : Text
  name : Text
  kind : ApiKeyKind
  keyPrefix : Text
  secretHash : Text
  ownerAdminId : Option Nat
  createdByAdminId : Option Nat
  status : ApiKeyStatus
  domainGrantMode : DomainGrantMode
  allowHeader : Bool
  allowQuery : Bool
  rateLimitPerMin : Int
  allowedIpCidrs : AllowedIpCidrs
  expiresAt : Option Text
  revokedAt : Option Timestamp
  deriving DecidableEq, Repr

/-- The tables; `adminSeq` and `apiKeySeq` are the `AUTOINCREMENT` sequences. -/
structure AuthDb where
  admins : List AdminRow
  adminSeq : Nat
  adminSessions : List AdminSessionRow
  apiKeys : List ApiKeyRow
  apiKeySeq : Nat
  apiKeyScopes : List (Nat × Text)
  apiKeyDomainGrants : List (Nat × Nat)
  apiKeyMailboxGrants : List (Nat × Text)
  domainIds : List Nat
  deriving DecidableEq, Repr

def AuthDb.empty : AuthDb := ⟨[], 0, [], [], 0, [], [], [], []⟩

/-- Why a call of `app/auth` raises. -/
inductive AuthError where
  /-- `ValueError`. -/
  | value (message : String)
  /-- `LookupError`. -/
  | lookup (message : String)
  /-- `OverflowError`. -/
  | overflow (message : String)
  /-- `ApiKeyAuthorizationError`. -/
  | authorization (message : String)
  /-- A constraint of the schema. -/
  | integrity (constraint : String)
  deriving DecidableEq, Repr

/-- `DatabaseWriter.execute`: the operation runs in one transaction, which is rolled back when it
    raises. -/
def AuthDb.execute {α : Type} (db : AuthDb) (operation : AuthDb → Except AuthError (α × AuthDb)) :
    Except AuthError α × AuthDb :=
  match operation db with
  | .ok (result, db') => (.ok result, db')
  | .error e => (.error e, db)

/-- `SELECT … WHERE api_key_id = ?`. -/
def ownedBy {β : Type} (keyId : Nat) (rows : List (Nat × β)) : List β :=
  rows.filterMap fun row => if row.1 = keyId then some row.2 else none

/-- The inserts of a key's rows into a table keyed by the key and the value; `parent` is the table's
    other foreign key. -/
def insertOwned {β : Type} [DecidableEq β] (table : String) (parent : β → Bool) (keyId : Nat) :
    List β → List (Nat × β) → Except AuthError (List (Nat × β))
  | [], rows => .ok rows
  | value :: values, rows =>
    if (keyId, value) ∈ rows then .error (.integrity table)
    else if !parent value then .error (.integrity "foreign key")
    else insertOwned table parent keyId values (rows ++ [(keyId, value)])

namespace AuthDb

variable (db : AuthDb)

def admin? (id : Nat) : Option AdminRow := db.admins.find? fun a => a.id = id

def apiKey? (id : Nat) : Option ApiKeyRow := db.apiKeys.find? fun k => k.id = id

/-- The session that is still good at a time, with its active administrator. -/
def liveSession? (sessionId : Text) (adminId : Option Nat) (now : Timestamp) :
    Option (AdminSessionRow × AdminRow) :=
  (db.adminSessions.find? fun s => s.id = sessionId).bind fun s =>
    (db.admin? s.adminId).bind fun a =>
      if s.revokedAt.isNone && decide (now < s.expiresAt) && a.isActive &&
          (match adminId with
            | none => true
            | some id => decide (a.id = id)) then some (s, a)
      else none

/-- `UPDATE admins … WHERE id = ?`. -/
def updateAdmin (id : Nat) (f : AdminRow → AdminRow) : AuthDb :=
  { db with admins := Table.updateWhere (fun a => a.id = id) f db.admins }

/-- `UPDATE api_keys … WHERE id = ?`. -/
def updateApiKey (id : Nat) (f : ApiKeyRow → ApiKeyRow) : AuthDb :=
  { db with apiKeys := Table.updateWhere (fun k => k.id = id) f db.apiKeys }

/-- A reference to an administrator, which may be `NULL`. -/
def adminExists (id : Option Nat) : Bool :=
  match id with
  | none => true
  | some id => (db.admin? id).isSome

/-- `INSERT INTO api_keys`; the id of `row` is replaced by the next of the sequence. -/
def insertApiKey (row : ApiKeyRow) : Except AuthError (Nat × AuthDb) :=
  if !db.adminExists row.ownerAdminId || !db.adminExists row.createdByAdminId then
    .error (.integrity "foreign key")
  else if db.apiKeys.any fun k => k.publicId = row.publicId then .error (.integrity "api_keys.public_id")
  else if db.apiKeys.any fun k => k.keyPrefix = row.keyPrefix then
    .error (.integrity "api_keys.key_prefix")
  else if db.apiKeys.any fun k => k.secretHash = row.secretHash then
    .error (.integrity "api_keys.secret_hash")
  else .ok (db.apiKeySeq + 1,
    { db with
      apiKeys := db.apiKeys ++ [{ row with id := db.apiKeySeq + 1 }]
      apiKeySeq := db.apiKeySeq + 1 })

/-- `INSERT INTO api_key_scopes`, for each scope. -/
def insertScopes (keyId : Nat) (scopes : List Text) : Except AuthError AuthDb :=
  (insertOwned "api_key_scopes" (fun _ => true) keyId scopes db.apiKeyScopes).map fun rows =>
    { db with apiKeyScopes := rows }

/-- `INSERT INTO api_key_domain_grants`, for each domain. -/
def insertDomainGrants (keyId : Nat) (ids : List Nat) : Except AuthError AuthDb :=
  (insertOwned "api_key_domain_grants" (fun id => id ∈ db.domainIds) keyId ids
    db.apiKeyDomainGrants).map fun rows => { db with apiKeyDomainGrants := rows }

/-- `INSERT INTO api_key_mailbox_grants`, for each pattern. -/
def insertMailboxGrants (keyId : Nat) (patterns : List Text) : Except AuthError AuthDb :=
  (insertOwned "api_key_mailbox_grants" (fun _ => true) keyId patterns db.apiKeyMailboxGrants).map
    fun rows => { db with apiKeyMailboxGrants := rows }

/-- `DELETE FROM api_key_scopes WHERE api_key_id = ?`. -/
def deleteScopes (keyId : Nat) : AuthDb :=
  { db with apiKeyScopes := db.apiKeyScopes.filter fun s => s.1 ≠ keyId }

/-- `DELETE FROM api_key_domain_grants WHERE api_key_id = ?`. -/
def deleteDomainGrants (keyId : Nat) : AuthDb :=
  { db with apiKeyDomainGrants := db.apiKeyDomainGrants.filter fun g => g.1 ≠ keyId }

/-- `DELETE FROM api_key_mailbox_grants WHERE api_key_id = ?`. -/
def deleteMailboxGrants (keyId : Nat) : AuthDb :=
  { db with apiKeyMailboxGrants := db.apiKeyMailboxGrants.filter fun g => g.1 ≠ keyId }

/-- `DELETE FROM api_keys WHERE id = ?`, with its cascades. -/
def deleteApiKey (keyId : Nat) : AuthDb :=
  { ((db.deleteScopes keyId).deleteDomainGrants keyId).deleteMailboxGrants keyId with
    apiKeys := db.apiKeys.filter fun k => k.id ≠ keyId }

end AuthDb

/-! ## The schema -/

/-- The primary keys, unique columns and foreign keys of the schema. -/
structure AuthDb.Consistent (db : AuthDb) : Prop where
  admin_ids : UniqueKey AdminRow.id db.admins
  admin_seq : ∀ a ∈ db.admins, a.id ≤ db.adminSeq
  admin_usernames : UniqueKey AdminRow.username db.admins
  session_ids : UniqueKey AdminSessionRow.id db.adminSessions
  session_admins : ∀ s ∈ db.adminSessions, ∃ a ∈ db.admins, a.id = s.adminId
  key_ids : UniqueKey ApiKeyRow.id db.apiKeys
  key_seq : ∀ k ∈ db.apiKeys, k.id ≤ db.apiKeySeq
  key_prefixes : UniqueKey ApiKeyRow.keyPrefix db.apiKeys
  scope_keys : ∀ s ∈ db.apiKeyScopes, ∃ k ∈ db.apiKeys, k.id = s.1
  domain_grant_keys : ∀ g ∈ db.apiKeyDomainGrants, ∃ k ∈ db.apiKeys, k.id = g.1
  mailbox_grant_keys : ∀ g ∈ db.apiKeyMailboxGrants, ∃ k ∈ db.apiKeys, k.id = g.1

theorem AuthDb.empty_consistent : AuthDb.empty.Consistent := by
  constructor <;> simp [AuthDb.empty, UniqueKey]

/-! ## Rows of a key -/

section Owned

variable {β : Type} {keyId : Nat}

@[simp] theorem mem_ownedBy {rows : List (Nat × β)} {value : β} :
    value ∈ ownedBy keyId rows ↔ (keyId, value) ∈ rows := by
  simp only [ownedBy, List.mem_filterMap]
  constructor
  · rintro ⟨⟨id, v⟩, hmem, hif⟩
    by_cases hid : id = keyId
    · simp_all
    · simp [hid] at hif
  · intro hmem
    exact ⟨_, hmem, by simp⟩

theorem insertOwned_ok [DecidableEq β] {table : String} {parent : β → Bool} {values : List β}
    {rows rows' : List (Nat × β)} (h : insertOwned table parent keyId values rows = .ok rows') :
    rows' = rows ++ values.map fun value => (keyId, value) := by
  induction values generalizing rows with
  | nil =>
    cases h
    simp
  | cons value values ih =>
    rw [insertOwned] at h
    split at h
    · cases h
    · split at h
      · cases h
      · rw [ih h]
        simp

end Owned

end RapidInbox

import RapidInbox.Auth.ApiKeys

/-!
# Administrators and their sessions

`app/auth/sessions.py`: logins, password changes, the sessions, and the five operations that manage
administrators.

A transaction is a function of the tables.  Readings of `utc_now()` and random values are its
arguments; an operation that reads the clock several times takes the sequence of its readings.
The window of failed logins, which only refuses calls, is left out.
-/

namespace RapidInbox

open Table

/-! ## Statements -/

namespace AuthDb

variable (db : AuthDb)

/-- `SELECT COUNT(*) FROM admins WHERE role = 'superadmin' AND is_active = 1`. -/
def activeSuperadmins : Nat :=
  (db.admins.filter fun a => a.role = .superadmin && a.isActive).length

/-- `INSERT INTO admins`; the id of `row` is replaced by the next of the sequence. -/
def insertAdmin (row : AdminRow) : Except AuthError (Nat × AuthDb) :=
  if db.admins.any fun a => a.username = row.username then .error (.integrity "admins.username")
  else .ok (db.adminSeq + 1,
    { db with
      admins := db.admins ++ [{ row with id := db.adminSeq + 1 }]
      adminSeq := db.adminSeq + 1 })

/-- `DELETE FROM admins WHERE id = ?`, with its trigger: the sessions go, and keys lose the
    reference. -/
def deleteAdminRow (id : Nat) : Except AuthError AuthDb :=
  if (db.admin? id).any fun old =>
      old.role = .superadmin && old.isActive && decide (db.activeSuperadmins ≤ 1) then
    .error (.integrity "cannot remove last active superadmin")
  else .ok
    { db with
      admins := db.admins.filter fun a => a.id ≠ id
      adminSessions := db.adminSessions.filter fun s => s.adminId ≠ id
      apiKeys := db.apiKeys.map fun k =>
        { k with
          ownerAdminId := if k.ownerAdminId = some id then none else k.ownerAdminId
          createdByAdminId := if k.createdByAdminId = some id then none else k.createdByAdminId } }

/-- `INSERT INTO admin_sessions`. -/
def insertSession (row : AdminSessionRow) : Except AuthError AuthDb :=
  if db.adminSessions.any fun s => s.id = row.id then .error (.integrity "admin_sessions.id")
  else if db.adminSessions.any fun s => s.sessionTokenHash = row.sessionTokenHash then
    .error (.integrity "admin_sessions.session_token_hash")
  else if (db.admin? row.adminId).isNone then .error (.integrity "foreign key")
  else .ok { db with adminSessions := db.adminSessions ++ [row] }

/-- `_revoke_admin_sessions_in_connection`. -/
def revokeAdminSessionsInConnection (adminId : Nat) (revokedAt : Timestamp)
    (exceptSessionId : Option Text) : AuthDb :=
  { db with
    adminSessions := updateWhere
      (fun s => s.adminId = adminId && exceptSessionId ≠ some s.id && s.revokedAt.isNone)
      (fun s => { s with revokedAt := s.revokedAt.or (some revokedAt) }) db.adminSessions }

end AuthDb

/-! ## Passwords -/

/-- `hashlib.pbkdf2_hmac` in hexadecimal, of a password and a salt. -/
abbrev PasswordDigest := Text → Text → Text

/-- `hash_password`, with the salt it draws. -/
def hashPassword (digest : PasswordDigest) (salt password : Text) : Text :=
  salt ++ '$' :: digest password salt

/-- `verify_password`: a stored text without a `$` verifies nothing. -/
def verifyPassword (digest : PasswordDigest) (password storedHash : Text) : Bool :=
  let salt := storedHash.takeWhile (· ≠ '$')
  match storedHash.drop salt.length with
  | [] => false
  | _ :: expected => digest password salt = expected

def minAdminPasswordLength : Nat := 12
def maxAdminPasswordLength : Nat := 1024

/-- `_validate_new_password`. -/
def validateNewPassword (password : Text) : Except AuthError Unit :=
  if password.length < minAdminPasswordLength then
    .error (.value "password must be at least 12 characters")
  else if maxAdminPasswordLength < password.length then
    .error (.value "password must be at most 1024 characters")
  else if password = "change-me-now".toList then
    .error (.value "password must not use the default bootstrap value")
  else .ok ()

/-! ## Logins -/

/-- The password checks a login and a password change begin with. -/
def passwordIsPlausible (password : Text) : Bool :=
  !password.isEmpty && decide (password.length ≤ maxAdminPasswordLength)

/-- `load_and_verify` of `authenticate_admin`. -/
def loadAndVerify (digest : PasswordDigest) (db : AuthDb) (username password : Text) :
    Except AuthError AdminRow :=
  match db.admins.find? fun a => a.username = username && a.isActive with
  | none => .error (.lookup "invalid admin credentials")
  | some row =>
    if passwordIsPlausible password && verifyPassword digest password row.passwordHash then .ok row
    else .error (.lookup "invalid admin credentials")

/-- `finalize_authentication`: the administrator that was verified is still as it was; the result is
    the proof of the password. -/
def finalizeAuthentication (row : AdminRow) (db : AuthDb) : Except AuthError (Text × AuthDb) :=
  if db.admins.any fun a =>
      a.id = row.id && a.isActive && a.username = row.username && a.passwordHash = row.passwordHash
  then .ok (row.passwordHash, db)
  else .error (.lookup "invalid admin credentials")

def sessionDurationDays : Nat := 30

/-- The values `create_session` draws. -/
structure SessionDraw where
  id : Text
  sessionTokenHash : Text
  now : Timestamp
  deriving DecidableEq, Repr

/-- The transaction of `create_session`. -/
def createSessionOperation (adminId : Nat) (expectedPasswordHash : Option Text) (draw : SessionDraw)
    (db : AuthDb) : Except AuthError (Unit × AuthDb) :=
  if db.admins.any fun a => a.id = adminId && a.isActive &&
      expectedPasswordHash.all fun expected => a.passwordHash = expected then
    (db.insertSession
      { id := draw.id
        adminId
        sessionTokenHash := draw.sessionTokenHash
        createdAt := draw.now
        expiresAt := draw.now + sessionDurationDays * 86400
        revokedAt := none }).map fun db => ((), db)
  else .error (.lookup "admin not found")

/-- The transaction of `revoke_session`. -/
def revokeSessionOperation (sessionId : Text) (revokedAt : Timestamp) (db : AuthDb) :
    Except AuthError (Unit × AuthDb) :=
  .ok ((),
    { db with
      adminSessions := updateWhere (fun s => s.id = sessionId)
        (fun s => { s with revokedAt := s.revokedAt.or (some revokedAt) }) db.adminSessions })

/-! ## A password change -/

/-- `verify_and_hash` of `change_admin_password`: the new hash and the one it replaces. -/
def verifyAndHash (digest : PasswordDigest) (db : AuthDb) (adminId : Nat)
    (currentPassword newPassword salt : Text) : Except AuthError (Text × Text) := do
  validateNewPassword newPassword
  if !passwordIsPlausible currentPassword then .error (.lookup "invalid admin credentials")
  else
    match db.admins.find? fun a => a.id = adminId && a.isActive with
    | none => .error (.lookup "invalid admin credentials")
    | some row =>
      if !verifyPassword digest currentPassword row.passwordHash then
        .error (.lookup "invalid admin credentials")
      else if verifyPassword digest newPassword row.passwordHash then
        .error (.value "password must be changed")
      else .ok (hashPassword digest salt newPassword, row.passwordHash)

/-- The columns a new password sets. -/
def AdminRow.setPassword (passwordHash : Text) (mustChangePassword : Bool) (row : AdminRow) :
    AdminRow :=
  { row with passwordHash, mustChangePassword }

/-- The session that changes the password is still good. -/
def sessionIsActive (db : AuthDb) (adminId : Nat) (now : Timestamp) : Option Text → Bool
  | none => true
  | some sessionId => (db.liveSession? sessionId (some adminId) now).isSome

/-- The transaction of `change_admin_password`. -/
def changeAdminPasswordOperation (adminId : Nat) (passwordHash expectedPasswordHash : Text)
    (currentSessionId : Option Text) (updatedAt : Timestamp) (db : AuthDb) :
    Except AuthError (Unit × AuthDb) :=
  if !sessionIsActive db adminId updatedAt currentSessionId then
    .error (.authorization "acting admin session is no longer active")
  else if db.admins.any fun a =>
      a.id = adminId && a.isActive && a.passwordHash = expectedPasswordHash then
    .ok ((), (db.updateAdmin adminId (.setPassword passwordHash false)
      ).revokeAdminSessionsInConnection adminId updatedAt currentSessionId)
  else .error (.lookup "invalid admin credentials")

/-! ## The actor of an administrator operation -/

/-- The loop of `_transaction_admin_principal`: the actor is reloaded once for each scope. -/
def authorizeForScopes (E : StdText) (db : AuthDb) (clock : Nat → Timestamp) :
    Nat → Option PermissionContext → List Text → Except AuthError (Option PermissionContext)
  | _, current, [] => .ok current
  | k, current, scope :: scopes =>
    match transactionAuthorizationPrincipal E db (clock k) current scope true none with
    | .error e => .error e
    | .ok current => authorizeForScopes E db clock (k + 1) current scopes

/-- The session of the actor, looked up once more. -/
def reloadSession (db : AuthDb) (now : Timestamp) (current : PermissionContext) :
    Except AuthError PermissionContext :=
  match current.adminSessionId with
  | none => .ok current
  | some sessionId =>
    match db.liveSession? sessionId current.adminId now with
    | none => .error (.authorization "acting admin session is no longer active")
    | some (session, admin) => .ok (roleContext admin.role (some admin.id) (some session.id))

/-- The last checks of `_transaction_admin_principal`. -/
def assertScopesGranted (current : PermissionContext) : List Text → Except AuthError Unit
  | [] =>
    if current.domainGrantMode ≠ .all then
      .error (.authorization "acting principal no longer has an all-domain grant")
    else .ok ()
  | scope :: scopes =>
    if !scopeIsGranted current.scopes scope then
      .error (.authorization
        ("acting principal no longer has required scope: " ++ String.ofList scope))
    else assertScopesGranted current scopes

/-- `_transaction_admin_principal`. -/
def transactionAdminPrincipal (E : StdText) (db : AuthDb) (clock : Nat → Timestamp)
    (principal : Option PermissionContext) (requiredScopes : List Text) :
    Except AuthError (Option PermissionContext) := do
  let current ← authorizeForScopes E db clock 0 principal requiredScopes
  match current with
  | none => return none
  | some current =>
    if current.legacyCredential then return some current
    else
      let current ← reloadSession db (clock requiredScopes.length) current
      assertScopesGranted current requiredScopes
      return some current

/-- `_assert_role_within_principal`. -/
def assertRoleWithinPrincipal (principal : Option PermissionContext) (role : AdminRole) :
    Except AuthError Unit :=
  match principal with
  | none => .ok ()
  | some p =>
    if p.legacyCredential then .ok ()
    else if role.scopes.all fun scope => scope ∈ effectiveScopes p.scopes then .ok ()
    else .error (.authorization "admin role exceeds acting principal permissions")

/-- `_ensure_active_superadmin_remains`. -/
def ensureActiveSuperadminRemains (db : AuthDb) (current : AdminRow) (nextRole : AdminRole)
    (nextIsActive deleting : Bool) : Except AuthError Unit :=
  if current.role ≠ .superadmin || !current.isActive then .ok ()
  else if !deleting && nextRole = .superadmin && nextIsActive then .ok ()
  else if db.activeSuperadmins ≤ 1 then .error (.value "cannot remove last active superadmin")
  else .ok ()

/-! ## Managing administrators -/

/-- `_normalize_username`. -/
def normalizeUsername (value : Text) : Except AuthError Text :=
  let username := stripUnicodeWhitespace value
  if username.isEmpty || 128 < username.length || username.any (fun c => decide (c.toNat < 32)) then
    .error (.value "invalid username")
  else .ok username

/-- `_normalize_display_name`. -/
def normalizeDisplayName (value : Option Text) : Except AuthError (Option Text) :=
  match value with
  | none => .ok none
  | some value =>
    let displayName := stripUnicodeWhitespace value
    if displayName.isEmpty then .ok none
    else if 200 < displayName.length || displayName.any (fun c => decide (c.toNat < 32)) then
      .error (.value "invalid display name")
    else .ok (some displayName)

/-- The arguments of `create_admin`, with the salt it draws. -/
structure CreateAdminArgs where
  username : Text
  password : Text
  role : AdminRole
  displayName : Option Text
  isActive : Bool
  mustChangePassword : Bool
  salt : Text
  deriving DecidableEq, Repr

/-- The row `create_admin` inserts; its id is not set yet. -/
def CreateAdminArgs.normalize (digest : PasswordDigest) (args : CreateAdminArgs) :
    Except AuthError AdminRow := do
  let username ← normalizeUsername args.username
  let displayName ← normalizeDisplayName args.displayName
  validateNewPassword args.password
  return {
    id := 0
    username
    displayName
    passwordHash := hashPassword digest args.salt args.password
    role := args.role
    isActive := args.isActive
    mustChangePassword := args.mustChangePassword }

/-- The transaction of `create_admin`. -/
def createAdminOperation (E : StdText) (clock : Nat → Timestamp)
    (principal : Option PermissionContext) (row : AdminRow) (db : AuthDb) :
    Except AuthError (Nat × AuthDb) := do
  let principal ← transactionAdminPrincipal E db clock principal
    ["admins.write".toList, "admins.credentials.write".toList]
  assertRoleWithinPrincipal principal row.role
  db.insertAdmin row

/-- The arguments of `update_admin`; an absent field is left alone. -/
structure AdminChanges where
  username : Option Text
  displayName : Option (Option Text)
  role : Option AdminRole
  isActive : Option Bool
  mustChangePassword : Option Bool
  deriving DecidableEq, Repr

/-- The part of `update_admin` before its transaction. -/
def AdminChanges.normalize (changes : AdminChanges) : Except AuthError AdminChanges := do
  let username ← normalizeField normalizeUsername changes.username
  let displayName ← normalizeField normalizeDisplayName changes.displayName
  return { changes with username, displayName }

def AdminChanges.isEmpty (changes : AdminChanges) : Bool :=
  changes.username.isNone && changes.displayName.isNone && changes.role.isNone &&
    changes.isActive.isNone && changes.mustChangePassword.isNone

/-- The `UPDATE admins` of `update_admin`, on a row. -/
def AdminChanges.apply (changes : AdminChanges) (row : AdminRow) : AdminRow :=
  { row with
    username := changes.username.getD row.username
    displayName := changes.displayName.getD row.displayName
    role := changes.role.getD row.role
    isActive := changes.isActive.getD row.isActive
    mustChangePassword := changes.mustChangePassword.getD row.mustChangePassword }

/-- The `UPDATE admins` of `update_admin`, with its trigger and the unique column. -/
def AuthDb.updateAdminRow (db : AuthDb) (current : AdminRow) (changes : AdminChanges) :
    Except AuthError AuthDb :=
  if (changes.role.isSome || changes.isActive.isSome) &&
      (current.role = .superadmin && current.isActive) &&
      !((changes.apply current).role = .superadmin && (changes.apply current).isActive) &&
      decide (db.activeSuperadmins ≤ 1) then
    .error (.integrity "cannot remove last active superadmin")
  else if db.admins.any fun a =>
      a.username = (changes.apply current).username && a.id ≠ current.id then
    .error (.integrity "admins.username")
  else .ok (db.updateAdmin current.id changes.apply)

/-- The row an operation is about. -/
def AuthDb.adminOrRaise (db : AuthDb) (adminId : Nat) : Except AuthError AdminRow :=
  match db.admin? adminId with
  | none => .error (.lookup "admin not found")
  | some row => .ok row

/-- The transaction of `update_admin`. -/
def updateAdminOperation (E : StdText) (clock : Nat → Timestamp) (now : Timestamp)
    (principal : Option PermissionContext) (adminId : Nat) (changes : AdminChanges) (db : AuthDb) :
    Except AuthError (Nat × AuthDb) := do
  let principal ← transactionAdminPrincipal E db clock principal ["admins.write".toList]
  let row ← db.adminOrRaise adminId
  assertRoleWithinPrincipal principal row.role
  assertRoleWithinPrincipal principal (changes.apply row).role
  ensureActiveSuperadminRemains db row (changes.apply row).role (changes.apply row).isActive false
  let db ← db.updateAdminRow row changes
  return (adminId,
    if row.isActive && !(changes.apply row).isActive then
      db.revokeAdminSessionsInConnection adminId now none
    else db)

/-- The transaction of `delete_admin`. -/
def deleteAdminOperation (E : StdText) (clock : Nat → Timestamp)
    (principal : Option PermissionContext) (adminId : Nat) (db : AuthDb) :
    Except AuthError (Nat × AuthDb) := do
  let principal ← transactionAdminPrincipal E db clock principal ["admins.write".toList]
  let row ← db.adminOrRaise adminId
  assertRoleWithinPrincipal principal row.role
  ensureActiveSuperadminRemains db row row.role row.isActive true
  let db ← db.deleteAdminRow adminId
  return (adminId, db)

/-- The transaction of `reset_admin_password`. -/
def resetAdminPasswordOperation (E : StdText) (clock : Nat → Timestamp) (updatedAt : Timestamp)
    (principal : Option PermissionContext) (adminId : Nat) (passwordHash : Text)
    (mustChangePassword : Bool) (db : AuthDb) : Except AuthError (Nat × AuthDb) := do
  let principal ← transactionAdminPrincipal E db clock principal ["admins.credentials.write".toList]
  let row ← db.adminOrRaise adminId
  assertRoleWithinPrincipal principal row.role
  return (adminId, (db.updateAdmin adminId (.setPassword passwordHash mustChangePassword)
    ).revokeAdminSessionsInConnection adminId updatedAt none)

/-- The transaction of `revoke_admin_sessions`. -/
def revokeAdminSessionsOperation (E : StdText) (clock : Nat → Timestamp) (revokedAt : Timestamp)
    (principal : Option PermissionContext) (adminId : Nat) (exceptSessionId : Option Text)
    (db : AuthDb) : Except AuthError (Nat × AuthDb) := do
  let principal ← transactionAdminPrincipal E db clock principal ["admins.sessions.write".toList]
  let row ← db.adminOrRaise adminId
  assertRoleWithinPrincipal principal row.role
  return (adminId, db.revokeAdminSessionsInConnection adminId revokedAt exceptSessionId)

/-! ## Calls -/

/-- A call of an operation that manages administrators, with the values it draws. -/
inductive AdminCall where
  | create (args : CreateAdminArgs)
  | update (adminId : Nat) (changes : AdminChanges) (now : Timestamp)
  | delete (adminId : Nat)
  | resetPassword (adminId : Nat) (newPassword salt : Text) (mustChangePassword : Bool)
      (now : Timestamp)
  | revokeSessions (adminId : Nat) (exceptSessionId : Option Text) (now : Timestamp)
  deriving DecidableEq, Repr

/-- The call as one function of the tables; the result is the administrator it is about. -/
def AdminCall.operation (E : StdText) (digest : PasswordDigest) (clock : Nat → Timestamp)
    (principal : Option PermissionContext) (call : AdminCall) (db : AuthDb) :
    Except AuthError (Nat × AuthDb) :=
  match call with
  | .create args => do
      let row ← args.normalize digest
      createAdminOperation E clock principal row db
  | .update adminId changes now => do
      let changes ← changes.normalize
      -- without an update there is no transaction, only the read of the administrator
      if changes.isEmpty then
        let row ← db.adminOrRaise adminId
        return (row.id, db)
      else updateAdminOperation E clock now principal adminId changes db
  | .delete adminId => deleteAdminOperation E clock principal adminId db
  | .resetPassword adminId newPassword salt mustChangePassword now => do
      validateNewPassword newPassword
      resetAdminPasswordOperation E clock now principal adminId
        (hashPassword digest salt newPassword) mustChangePassword db
  | .revokeSessions adminId exceptSessionId now =>
    revokeAdminSessionsOperation E clock now principal adminId exceptSessionId db

end RapidInbox

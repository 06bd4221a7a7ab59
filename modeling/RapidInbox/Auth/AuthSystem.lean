import RapidInbox.Auth.Admins
import RapidInbox.Lib.Run

/-!
# Logins, password changes and administration, interleaved

A login verifies the password outside a transaction, confirms it in one, and opens the session in
another; a password change verifies outside and writes in a transaction.  Between any two of these
steps other tasks commit.
-/

namespace RapidInbox

/-- What a task holds between two of its steps. -/
inductive AuthTask where
  | idle
  /-- `load_and_verify` has accepted the password of this row. -/
  | verified (row : AdminRow)
  /-- `authenticate_admin` has returned, with the hash as the proof. -/
  | authenticated (adminId : Nat) (proof : Text)
  /-- `verify_and_hash` of a password change has returned. -/
  | proved (adminId : Nat) (passwordHash expectedPasswordHash : Text)
      (currentSessionId : Option Text)

/-- The tables and the tasks.  The three last fields are the specification's: the hash of its
    administrator when a session was created, the session that the last password change of an
    administrator kept, and the sessions, with their administrator, that were there when it was
    deactivated. -/
structure AuthSystem where
  db : AuthDb
  tasks : Nat → AuthTask
  createdUnder : Text → Option Text
  kept : Nat → Option Text
  stopped : List (Text × Nat)

/-- The sessions that are there at the start count as created under the hashes of that time. -/
def AuthSystem.start (db : AuthDb) : AuthSystem :=
  { db
    tasks := fun _ => .idle
    createdUnder := fun id => (db.adminSessions.find? fun x => x.id = id).bind fun x =>
      (db.admin? x.adminId).map AdminRow.passwordHash
    kept := fun _ => none
    stopped := [] }

inductive AuthAction where
  | loadAndVerify (task : Nat) (username password : Text)
  | finalizeAuthentication (task : Nat)
  | createSession (task : Nat) (draw : SessionDraw)
  | verifyAndHash (task adminId : Nat) (currentPassword newPassword salt : Text)
      (currentSessionId : Option Text)
  | changePassword (task : Nat) (updatedAt : Timestamp)
  | revokeSession (sessionId : Text) (revokedAt : Timestamp)
  | adminCall (principal : Option PermissionContext) (clock : Nat → Timestamp) (call : AdminCall)
  | keyCall (principal : Option PermissionContext) (now : Timestamp) (call : KeyCall)

namespace AuthSystem

variable (s : AuthSystem)

def goto (i : Nat) (t : AuthTask) : AuthSystem := { s with tasks := Function.update s.tasks i t }

/-- The sessions of an administrator that a transaction deactivates. -/
def newlyStopped (db db' : AuthDb) (adminId : Nat) : List (Text × Nat) :=
  if (db.admin? adminId).any (fun a => a.isActive) && (db'.admin? adminId).any (fun a => !a.isActive)
  then (db.adminSessions.filter fun x => x.adminId = adminId).map fun x => (x.id, x.adminId)
  else []

/-- The session that a call keeps, where it sets a password. -/
def keptAfter (call : AdminCall) : Nat → Option Text :=
  match call with
  | .resetPassword adminId .. => Function.update s.kept adminId none
  | _ => s.kept

/-- The transaction of `create_session` at the end of a login. -/
def createSession (i adminId : Nat) (proof : Text) (draw : SessionDraw) : AuthSystem :=
  match s.db.execute (createSessionOperation adminId (some proof) draw) with
  | (.error _, db) => { s.goto i .idle with db }
  | (.ok (), db) =>
    { s.goto i .idle with
      db
      createdUnder := Function.update s.createdUnder draw.id
        ((s.db.admin? adminId).map AdminRow.passwordHash) }

/-- The transaction of `change_admin_password`. -/
def changePassword (i adminId : Nat) (passwordHash expectedPasswordHash : Text)
    (currentSessionId : Option Text) (updatedAt : Timestamp) : AuthSystem :=
  match s.db.execute (changeAdminPasswordOperation adminId passwordHash expectedPasswordHash
      currentSessionId updatedAt) with
  | (.error _, db) => { s.goto i .idle with db }
  | (.ok (), db) => { s.goto i .idle with db, kept := Function.update s.kept adminId currentSessionId }

/-- A call that manages administrators. -/
def adminCall (E : StdText) (digest : PasswordDigest) (principal : Option PermissionContext)
    (clock : Nat → Timestamp) (call : AdminCall) : AuthSystem :=
  match s.db.execute (call.operation E digest clock principal) with
  | (.error _, db) => { s with db }
  | (.ok adminId, db) =>
    { s with
      db
      kept := s.keptAfter call
      stopped := newlyStopped s.db db adminId ++ s.stopped }

def step (E : StdText) (digest : PasswordDigest) : AuthAction → Option AuthSystem
  | .loadAndVerify i username password =>
    match s.tasks i with
    | .idle =>
      match loadAndVerify digest s.db username password with
      | .error _ => some s
      | .ok row => some (s.goto i (.verified row))
    | _ => none
  | .finalizeAuthentication i =>
    match s.tasks i with
    | .verified row =>
      match s.db.execute (finalizeAuthentication row) with
      | (.error _, db) => some { s.goto i .idle with db }
      | (.ok proof, db) => some { s.goto i (.authenticated row.id proof) with db }
    | _ => none
  | .createSession i draw =>
    match s.tasks i with
    | .authenticated adminId proof => some (s.createSession i adminId proof draw)
    | _ => none
  | .verifyAndHash i adminId currentPassword newPassword salt currentSessionId =>
    match s.tasks i with
    | .idle =>
      match verifyAndHash digest s.db adminId currentPassword newPassword salt with
      | .error _ => some s
      | .ok (passwordHash, expectedPasswordHash) =>
        some (s.goto i (.proved adminId passwordHash expectedPasswordHash currentSessionId))
    | _ => none
  | .changePassword i updatedAt =>
    match s.tasks i with
    | .proved adminId passwordHash expectedPasswordHash currentSessionId =>
      some (s.changePassword i adminId passwordHash expectedPasswordHash currentSessionId updatedAt)
    | _ => none
  | .revokeSession sessionId revokedAt =>
    some { s with db := (s.db.execute (revokeSessionOperation sessionId revokedAt)).2 }
  | .adminCall principal clock call => some (s.adminCall E digest principal clock call)
  | .keyCall principal now call =>
    some { s with db := (s.db.execute (call.operation E now principal)).2 }

/-- A whole interleaving. -/
def run (E : StdText) (digest : PasswordDigest) (actions : List AuthAction) : Option AuthSystem :=
  Transition.run (fun s a => s.step E digest a) s actions

end AuthSystem

end RapidInbox

import RapidInbox.Auth.AuthSystem
import RapidInbox.Lib.Result

/-!
# What the administrator operations do

One lemma for each operation says all that holds when it commits: the checks it made on the tables it
found, and the tables it leaves.
-/

namespace RapidInbox

open Table

section Operations

variable {E : StdText} {digest : PasswordDigest} {clock : Nat → Timestamp} {now : Timestamp}
variable {db db' : AuthDb} {p : Option PermissionContext} {adminId id : Nat}

theorem AuthDb.adminOrRaise_ok {row : AdminRow} (h : db.adminOrRaise adminId = .ok row) :
    db.admin? adminId = some row := by
  unfold AuthDb.adminOrRaise at h
  cases hrow : db.admin? adminId with
  | none => simp [hrow] at h
  | some row' =>
    simp only [hrow, Except.ok.injEq] at h
    rw [h]

theorem AuthDb.insertAdmin_ok {row : AdminRow} (h : db.insertAdmin row = .ok (id, db')) :
    id = db.adminSeq + 1 ∧ db' = { db with
      admins := db.admins ++ [{ row with id := db.adminSeq + 1 }]
      adminSeq := db.adminSeq + 1 } := by
  unfold AuthDb.insertAdmin at h
  split at h
  · cases h
  · cases h
    exact ⟨rfl, rfl⟩

theorem createAdminOperation_ok {row : AdminRow}
    (h : createAdminOperation E clock p row db = .ok (id, db')) :
    (∃ actor, transactionAdminPrincipal E db clock p
        ["admins.write".toList, "admins.credentials.write".toList] = .ok actor ∧
      assertRoleWithinPrincipal actor row.role = .ok ()) ∧
    id = db.adminSeq + 1 ∧ db' = { db with
      admins := db.admins ++ [{ row with id := db.adminSeq + 1 }]
      adminSeq := db.adminSeq + 1 } := by
  obtain ⟨actor, hactor, h⟩ := Except.bind_ok_iff.mp h
  obtain ⟨⟨⟩, hrole, h⟩ := Except.bind_ok_iff.mp h
  exact ⟨⟨actor, hactor, hrole⟩, AuthDb.insertAdmin_ok h⟩

theorem AuthDb.updateAdminRow_ok {row : AdminRow} {changes : AdminChanges}
    (h : db.updateAdminRow row changes = .ok db') : db' = db.updateAdmin row.id changes.apply := by
  unfold AuthDb.updateAdminRow at h
  split at h
  · cases h
  · split at h
    · cases h
    · cases h
      rfl

theorem updateAdminOperation_ok {changes : AdminChanges}
    (h : updateAdminOperation E clock now p adminId changes db = .ok (id, db')) :
    id = adminId ∧ ∃ row, db.admin? adminId = some row ∧
      (∃ actor, transactionAdminPrincipal E db clock p ["admins.write".toList] = .ok actor ∧
        assertRoleWithinPrincipal actor row.role = .ok () ∧
        assertRoleWithinPrincipal actor (changes.apply row).role = .ok ()) ∧
      ensureActiveSuperadminRemains db row (changes.apply row).role (changes.apply row).isActive false =
        .ok () ∧
      db' = if row.isActive && !(changes.apply row).isActive then
        (db.updateAdmin adminId changes.apply).revokeAdminSessionsInConnection adminId now none
      else db.updateAdmin adminId changes.apply := by
  obtain ⟨actor, hactor, h⟩ := Except.bind_ok_iff.mp h
  obtain ⟨row, hrow, h⟩ := Except.bind_ok_iff.mp h
  obtain ⟨⟨⟩, hbefore, h⟩ := Except.bind_ok_iff.mp h
  obtain ⟨⟨⟩, hafter, h⟩ := Except.bind_ok_iff.mp h
  obtain ⟨⟨⟩, hremains, h⟩ := Except.bind_ok_iff.mp h
  obtain ⟨db₁, hupdate, h⟩ := Except.bind_ok_iff.mp h
  have hrow := AuthDb.adminOrRaise_ok hrow
  have hid : row.id = adminId := (find?_key hrow).2
  rw [AuthDb.updateAdminRow_ok hupdate, hid] at h
  cases h
  exact ⟨rfl, row, hrow, ⟨actor, hactor, hbefore, hafter⟩, hremains, rfl⟩

theorem AuthDb.deleteAdminRow_ok (h : db.deleteAdminRow adminId = .ok db') :
    db' = { db with
      admins := db.admins.filter fun a => a.id ≠ adminId
      adminSessions := db.adminSessions.filter fun s => s.adminId ≠ adminId
      apiKeys := db'.apiKeys } := by
  unfold AuthDb.deleteAdminRow at h
  split at h
  · cases h
  · cases h
    rfl

theorem deleteAdminOperation_ok (h : deleteAdminOperation E clock p adminId db = .ok (id, db')) :
    id = adminId ∧ ∃ row, db.admin? adminId = some row ∧
      (∃ actor, transactionAdminPrincipal E db clock p ["admins.write".toList] = .ok actor ∧
        assertRoleWithinPrincipal actor row.role = .ok ()) ∧
      ensureActiveSuperadminRemains db row row.role row.isActive true = .ok () ∧
      db' = { db with
        admins := db.admins.filter fun a => a.id ≠ adminId
        adminSessions := db.adminSessions.filter fun s => s.adminId ≠ adminId
        apiKeys := db'.apiKeys } := by
  obtain ⟨actor, hactor, h⟩ := Except.bind_ok_iff.mp h
  obtain ⟨row, hrow, h⟩ := Except.bind_ok_iff.mp h
  obtain ⟨⟨⟩, hrole, h⟩ := Except.bind_ok_iff.mp h
  obtain ⟨⟨⟩, hremains, h⟩ := Except.bind_ok_iff.mp h
  obtain ⟨db₁, hdelete, h⟩ := Except.bind_ok_iff.mp h
  cases h
  exact ⟨rfl, row, AuthDb.adminOrRaise_ok hrow, ⟨actor, hactor, hrole⟩, hremains,
    AuthDb.deleteAdminRow_ok hdelete⟩

theorem resetAdminPasswordOperation_ok {passwordHash : Text} {mustChangePassword : Bool}
    (h : resetAdminPasswordOperation E clock now p adminId passwordHash mustChangePassword db =
      .ok (id, db')) :
    id = adminId ∧ ∃ row, db.admin? adminId = some row ∧
      (∃ actor, transactionAdminPrincipal E db clock p ["admins.credentials.write".toList] = .ok actor ∧
        assertRoleWithinPrincipal actor row.role = .ok ()) ∧
      db' = (db.updateAdmin adminId (.setPassword passwordHash mustChangePassword)
        ).revokeAdminSessionsInConnection adminId now none := by
  obtain ⟨actor, hactor, h⟩ := Except.bind_ok_iff.mp h
  obtain ⟨row, hrow, h⟩ := Except.bind_ok_iff.mp h
  obtain ⟨⟨⟩, hrole, h⟩ := Except.bind_ok_iff.mp h
  cases h
  exact ⟨rfl, row, AuthDb.adminOrRaise_ok hrow, ⟨actor, hactor, hrole⟩, rfl⟩

theorem revokeAdminSessionsOperation_ok {exceptSessionId : Option Text}
    (h : revokeAdminSessionsOperation E clock now p adminId exceptSessionId db = .ok (id, db')) :
    id = adminId ∧ ∃ row, db.admin? adminId = some row ∧
      (∃ actor, transactionAdminPrincipal E db clock p ["admins.sessions.write".toList] = .ok actor ∧
        assertRoleWithinPrincipal actor row.role = .ok ()) ∧
      db' = db.revokeAdminSessionsInConnection adminId now exceptSessionId := by
  obtain ⟨actor, hactor, h⟩ := Except.bind_ok_iff.mp h
  obtain ⟨row, hrow, h⟩ := Except.bind_ok_iff.mp h
  obtain ⟨⟨⟩, hrole, h⟩ := Except.bind_ok_iff.mp h
  cases h
  exact ⟨rfl, row, AuthDb.adminOrRaise_ok hrow, ⟨actor, hactor, hrole⟩, rfl⟩

/-! ## Logins and password changes -/

theorem createSessionOperation_ok {proof : Option Text} {draw : SessionDraw}
    (h : createSessionOperation adminId proof draw db = .ok ((), db')) :
    (∃ a ∈ db.admins, a.id = adminId ∧ a.isActive = true ∧ ∀ expected, proof = some expected →
      a.passwordHash = expected) ∧
    (∀ s ∈ db.adminSessions, s.id ≠ draw.id) ∧
    ∃ row : AdminSessionRow, row.id = draw.id ∧ row.adminId = adminId ∧
      db' = { db with adminSessions := db.adminSessions ++ [row] } := by
  unfold createSessionOperation at h
  split at h
  · rename_i hadmin
    obtain ⟨db₁, hinsert, hdb⟩ := Except.map_ok_iff.mp h
    cases hdb
    obtain ⟨a, ha, hchecks⟩ := List.any_eq_true.mp hadmin
    simp only [Bool.and_eq_true, decide_eq_true_eq] at hchecks
    unfold AuthDb.insertSession at hinsert
    split at hinsert
    · cases hinsert
    · rename_i hfree
      split at hinsert
      · cases hinsert
      · split at hinsert
        · cases hinsert
        · cases hinsert
          refine ⟨⟨a, ha, hchecks.1.1, hchecks.1.2, ?_⟩, ?_, _, rfl, rfl, rfl⟩
          · rintro expected rfl
            simpa using hchecks.2
          · intro s hs heq
            exact hfree (List.any_eq_true.mpr ⟨s, hs, decide_eq_true heq⟩)
  · cases h

theorem changeAdminPasswordOperation_ok {passwordHash expectedPasswordHash : Text}
    {currentSessionId : Option Text}
    (h : changeAdminPasswordOperation adminId passwordHash expectedPasswordHash currentSessionId now db =
      .ok ((), db')) :
    db' = (db.updateAdmin adminId (.setPassword passwordHash false)
      ).revokeAdminSessionsInConnection adminId now currentSessionId := by
  unfold changeAdminPasswordOperation at h
  split at h
  · cases h
  · split at h
    · cases h
      rfl
    · cases h

theorem finalizeAuthentication_ok {row : AdminRow} {proof : Text}
    (h : finalizeAuthentication row db = .ok (proof, db')) : db' = db := by
  unfold finalizeAuthentication at h
  split at h
  · cases h
    rfl
  · cases h

end Operations

/-! ## Key operations leave the administrators alone -/

/-- The same administrators and sessions. -/
structure AuthDb.SameAdmins (db db' : AuthDb) : Prop where
  admins : db'.admins = db.admins
  adminSeq : db'.adminSeq = db.adminSeq
  adminSessions : db'.adminSessions = db.adminSessions

namespace AuthDb.SameAdmins

variable {E : StdText} {now : Timestamp} {db db' db'' : AuthDb} {apiKeyId : Nat}
variable {p : Option PermissionContext}

theorem rfl' : SameAdmins db db := ⟨rfl, rfl, rfl⟩

theorem trans (h : SameAdmins db db') (h' : SameAdmins db' db'') : SameAdmins db db'' :=
  ⟨h'.admins.trans h.admins, h'.adminSeq.trans h.adminSeq, h'.adminSessions.trans h.adminSessions⟩

theorem insertScopes {scopes : List Text} (h : db.insertScopes apiKeyId scopes = .ok db') :
    SameAdmins db db' := by
  obtain ⟨rows, -, rfl⟩ := Except.map_ok_iff.mp h
  exact ⟨rfl, rfl, rfl⟩

theorem insertDomainGrants {ids : List Nat} (h : db.insertDomainGrants apiKeyId ids = .ok db') :
    SameAdmins db db' := by
  obtain ⟨rows, -, rfl⟩ := Except.map_ok_iff.mp h
  exact ⟨rfl, rfl, rfl⟩

theorem insertMailboxGrants {patterns : List Text}
    (h : db.insertMailboxGrants apiKeyId patterns = .ok db') : SameAdmins db db' := by
  obtain ⟨rows, -, rfl⟩ := Except.map_ok_iff.mp h
  exact ⟨rfl, rfl, rfl⟩

theorem insertApiKey {row : ApiKeyRow} {id : Nat} (h : db.insertApiKey row = .ok (id, db')) :
    SameAdmins db db' := by
  unfold AuthDb.insertApiKey at h
  split at h
  · cases h
  · split at h
    · cases h
    · split at h
      · cases h
      · split at h
        · cases h
        · cases h
          exact ⟨rfl, rfl, rfl⟩

theorem createKey {key : NewKey} {id : Nat} (h : createKeyOperation E now p key db = .ok (id, db')) :
    SameAdmins db db' := by
  obtain ⟨actor, -, h⟩ := Except.bind_ok_iff.mp h
  obtain ⟨⟨⟩, -, h⟩ := Except.bind_ok_iff.mp h
  obtain ⟨⟨id, db₁⟩, hinsert, h⟩ := Except.bind_ok_iff.mp h
  obtain ⟨db₂, hscopes, h⟩ := Except.bind_ok_iff.mp h
  obtain ⟨db₃, hdomains, h⟩ := Except.bind_ok_iff.mp h
  obtain ⟨db₄, hmailboxes, h⟩ := Except.bind_ok_iff.mp h
  cases h
  exact (((insertApiKey hinsert).trans (insertScopes hscopes)).trans
    (insertDomainGrants hdomains)).trans (insertMailboxGrants hmailboxes)

theorem writeKey {changes : KeyChanges} {scopes : Option (List Text)}
    (h : db.writeKey apiKeyId changes scopes now = .ok db') : SameAdmins db db' := by
  obtain ⟨db₁, hscopes, h⟩ := Except.bind_ok_iff.mp h
  obtain ⟨db₂, hdomains, hmailboxes⟩ := Except.bind_ok_iff.mp h
  have h₁ : SameAdmins db db₁ := by
    cases scopes with
    | none =>
      cases hscopes
      exact ⟨rfl, rfl, rfl⟩
    | some scopes =>
      have h : SameAdmins ((db.updateApiKey apiKeyId (changes.apply now)).deleteScopes apiKeyId) db₁ :=
        insertScopes hscopes
      exact ⟨h.admins, h.adminSeq, h.adminSessions⟩
  have h₂ : SameAdmins db₁ db₂ := by
    unfold AuthDb.replaceDomainGrants at hdomains
    split at hdomains
    · have h := insertDomainGrants hdomains
      exact ⟨h.admins, h.adminSeq, h.adminSessions⟩
    · cases hdomains
      exact rfl'
  have h₃ : SameAdmins db₂ db' := by
    cases hpatterns : changes.mailboxPatterns with
    | none =>
      rw [hpatterns] at hmailboxes
      cases hmailboxes
      exact rfl'
    | some patterns =>
      rw [hpatterns] at hmailboxes
      have h : SameAdmins (db₂.deleteMailboxGrants apiKeyId) db' := insertMailboxGrants hmailboxes
      exact ⟨h.admins, h.adminSeq, h.adminSessions⟩
  exact (h₁.trans h₂).trans h₃

theorem updateKey {changes : KeyChanges} {row : ApiKeyRow}
    (h : updateKeyOperation E now p apiKeyId changes db = .ok (row, db')) : SameAdmins db db' := by
  obtain ⟨⟨actor, current⟩, -, h⟩ := Except.bind_ok_iff.mp h
  obtain ⟨scopes, -, h⟩ := Except.bind_ok_iff.mp h
  obtain ⟨db₁, hwrite, h⟩ := Except.bind_ok_iff.mp h
  cases hload : db₁.loadKey apiKeyId with
  | none => simp [hload] at h
  | some loaded =>
    rw [hload] at h
    obtain ⟨⟨⟩, -, h⟩ := Except.bind_ok_iff.mp h
    cases h
    exact writeKey hwrite

/-- The other operations rewrite or delete rows of the key tables. -/
theorem keyCall {call : KeyCall} {id : Nat} (h : call.operation E now p db = .ok (id, db')) :
    SameAdmins db db' := by
  cases call with
  | create args =>
    obtain ⟨key, -, h⟩ := Except.bind_ok_iff.mp h
    exact createKey h
  | update target args =>
    obtain ⟨changes, -, h⟩ := Except.bind_ok_iff.mp h
    obtain ⟨⟨row, db₁⟩, hupdate, h⟩ := Except.bind_ok_iff.mp h
    cases h
    exact updateKey hupdate
  | rotate target keyPrefix secretHash =>
    obtain ⟨⟨row, db₁⟩, hrotate, h⟩ := Except.bind_ok_iff.mp h
    cases h
    obtain ⟨⟨actor, current⟩, -, h⟩ := Except.bind_ok_iff.mp hrotate
    dsimp only at h
    split at h
    · cases h
    · obtain ⟨due, -, h⟩ := Except.bind_ok_iff.mp h
      split at h
      · cases h
      · split at h
        · cases h
        · split at h
          · cases h
          · cases h
            exact ⟨rfl, rfl, rfl⟩
  | revoke target revokedAt =>
    obtain ⟨⟨row, db₁⟩, hrevoke, h⟩ := Except.bind_ok_iff.mp h
    cases h
    obtain ⟨⟨actor, current⟩, -, h⟩ := Except.bind_ok_iff.mp hrevoke
    cases h
    exact ⟨rfl, rfl, rfl⟩
  | delete target =>
    obtain ⟨⟨row, db₁⟩, hdelete, h⟩ := Except.bind_ok_iff.mp h
    cases h
    obtain ⟨⟨actor, current⟩, -, h⟩ := Except.bind_ok_iff.mp hdelete
    dsimp only at h
    split at h
    · cases h
    · cases h
      exact ⟨rfl, rfl, rfl⟩

end AuthDb.SameAdmins

end RapidInbox

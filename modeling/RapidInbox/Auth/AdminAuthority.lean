import RapidInbox.Auth.SessionRevocation

/-!
# The authority of administrators

A call that manages administrators touches one of them, and its roles before and after are within the
scopes the actor has in the tables the call finds.  A refused call changes nothing, and no call takes
the last active superadmin away.
-/

namespace RapidInbox

open Table

/-! ## The actor as reloaded -/

section Actor

variable {E : StdText} {db : AuthDb} {clock : Nat → Timestamp} {t t' : Timestamp}
  {p current : PermissionContext}

theorem AuthDb.liveSession?_eq_some {sessionId : Text} {adminId : Option Nat} {x : AdminSessionRow}
    {a : AdminRow} (h : db.liveSession? sessionId adminId t = some (x, a)) :
    x.id = sessionId ∧ (∀ id, adminId = some id → a.id = id) ∧
      ∀ id, (∀ i, id = some i → a.id = i) → db.liveSession? sessionId id t = some (x, a) := by
  unfold AuthDb.liveSession? at h ⊢
  obtain ⟨x', hx, h⟩ := Option.bind_eq_some_iff.mp h
  obtain ⟨a', ha, h⟩ := Option.bind_eq_some_iff.mp h
  obtain ⟨hlive, hfound⟩ := Option.ite_none_right_eq_some.mp h
  cases hfound
  simp only [Bool.and_eq_true] at hlive
  refine ⟨(find?_key hx).2, ?_, ?_⟩
  · rintro id rfl
    simpa using hlive.2
  · intro id hid
    rw [hx, Option.bind_some, ha, Option.bind_some, if_pos]
    simp only [Bool.and_eq_true]
    refine ⟨hlive.1, ?_⟩
    cases id with
    | none => rfl
    | some i => exact decide_eq_true (hid i rfl)

theorem AuthDb.loadKey_id {apiKeyId : Nat} {row : ApiKeyRow} {policy : KeyPolicy}
    (h : db.loadKey apiKeyId = some (row, policy)) : row.id = apiKeyId := by
  obtain ⟨row', hrow, heq⟩ := Option.map_eq_some_iff.mp h
  cases heq
  exact (find?_key hrow).2

/-- What a reload gives: the same key, the same session, or the context itself. -/
theorem reloadPrincipal_ok (h : reloadPrincipal E db t p = .ok current) :
    (∃ id, p.apiKeyId = some id ∧ current.apiKeyId = some id ∧ current.adminSessionId = none ∧
      current.legacyCredential = false) ∨
    (∃ sessionId x a, p.apiKeyId = none ∧ p.adminSessionId = some sessionId ∧
      db.liveSession? sessionId p.adminId t = some (x, a) ∧
      current = roleContext a.role (some a.id) (some sessionId)) ∨
    (p.apiKeyId = none ∧ p.adminSessionId = none ∧ current = p) := by
  unfold reloadPrincipal at h
  cases hkey : p.apiKeyId with
  | some id =>
    simp only [hkey] at h
    split at h
    · cases h
    · rename_i actor policy hload
      split at h
      · cases h
      · split at h
        · cases h
        · cases h
        · split at h
          · cases h
            exact .inl ⟨id, rfl, congrArg some (AuthDb.loadKey_id hload), rfl, rfl⟩
          · cases h
  | none =>
    simp only [hkey] at h
    cases hsession : p.adminSessionId with
    | none =>
      simp only [hsession] at h
      cases h
      exact .inr (.inr ⟨rfl, rfl, rfl⟩)
    | some sessionId =>
      simp only [hsession] at h
      split at h
      · cases h
      · rename_i x a hlive
        cases h
        refine .inr (.inl ⟨sessionId, x, a, rfl, rfl, hlive, ?_⟩)
        rw [(AuthDb.liveSession?_eq_some hlive).1]

/-- Reloading what was reloaded is reloading the caller. -/
theorem reloadPrincipal_reload {current' : PermissionContext}
    (h : reloadPrincipal E db t p = .ok current) (h' : reloadPrincipal E db t' current = .ok current') :
    reloadPrincipal E db t' p = .ok current' := by
  rcases reloadPrincipal_ok h with ⟨id, hp, hc, -⟩ | ⟨sessionId, x, a, hp, hs, hlive, rfl⟩ | ⟨-, -, rfl⟩
  · unfold reloadPrincipal at h' ⊢
    rw [hc] at h'
    rw [hp]
    exact h'
  · unfold reloadPrincipal at h' ⊢
    simp only [roleContext, hp, hs] at h' ⊢
    cases hlive' : db.liveSession? sessionId (some a.id) t' with
    | none => simp [hlive'] at h'
    | some found =>
      obtain ⟨x', a'⟩ := found
      have hid : a'.id = a.id := (AuthDb.liveSession?_eq_some hlive').2.1 a.id rfl
      have hadmin := (AuthDb.liveSession?_eq_some hlive).2.1
      have hsame : db.liveSession? sessionId p.adminId t' = some (x', a') :=
        (AuthDb.liveSession?_eq_some hlive').2.2 p.adminId fun i hi => hid.trans (hadmin i hi)
      rw [hlive'] at h'
      rw [hsame]
      exact h'
  · exact h'

theorem reloadPrincipal_legacy (hp : p.legacyCredential = false)
    (h : reloadPrincipal E db t p = .ok current) : current.legacyCredential = false := by
  rcases reloadPrincipal_ok h with ⟨-, -, -, -, hlegacy⟩ | ⟨-, -, -, -, -, -, rfl⟩ | ⟨-, -, rfl⟩
  · exact hlegacy
  · rfl
  · exact hp

theorem authorizePrincipal_ok {scope : Text} {requireGlobal : Bool} {domainId : Option Nat}
    {current' : PermissionContext}
    (h : authorizePrincipal current scope requireGlobal domainId = .ok current') : current' = current := by
  unfold authorizePrincipal at h
  split at h
  · cases h
  · split at h
    · cases h
    · split at h
      · cases h
        rfl
      · split at h
        · cases h
          rfl
        · cases h

theorem transactionAuthorizationPrincipal_ok (hp : p.legacyCredential = false) {scope : Text}
    {requireGlobal : Bool} {domainId : Option Nat} {actor : Option PermissionContext}
    (h : transactionAuthorizationPrincipal E db t (some p) scope requireGlobal domainId = .ok actor) :
    ∃ current, actor = some current ∧ reloadPrincipal E db t p = .ok current := by
  unfold transactionAuthorizationPrincipal at h
  simp only [hp, Bool.false_eq_true, if_false] at h
  split at h
  · cases h
  · rename_i current hreload
    obtain ⟨current', hauth, rfl⟩ := Except.map_ok_iff.mp h
    exact ⟨current', rfl, by rw [hreload, authorizePrincipal_ok hauth]⟩

/-- The loop over the scopes ends with the caller as some reading of the clock found it. -/
theorem authorizeForScopes_ok {scopes : List Text} {k n : Nat} {actor : Option PermissionContext}
    {p₀ : PermissionContext} (hp : p.legacyCredential = false)
    (hreload : reloadPrincipal E db (clock n) p₀ = .ok p)
    (h : authorizeForScopes E db clock k (some p) scopes = .ok actor) :
    ∃ n current, actor = some current ∧ current.legacyCredential = false ∧
      reloadPrincipal E db (clock n) p₀ = .ok current := by
  induction scopes generalizing k n p with
  | nil =>
    cases h
    exact ⟨n, p, rfl, hp, hreload⟩
  | cons scope scopes ih =>
    rw [authorizeForScopes] at h
    split at h
    · cases h
    · rename_i actor' hauth
      obtain ⟨current, rfl, hcurrent⟩ := transactionAuthorizationPrincipal_ok hp hauth
      exact ih (reloadPrincipal_legacy hp hcurrent) (reloadPrincipal_reload hreload hcurrent) h

/-- The session is looked up once more, which is another reload of the caller. -/
theorem reloadSession_ok {current' : PermissionContext} (hreload : reloadPrincipal E db t p = .ok current)
    (hcurrent : current.legacyCredential = false)
    (h : reloadSession db t' current = .ok current') :
    (reloadPrincipal E db t p = .ok current' ∨ reloadPrincipal E db t' p = .ok current') ∧
      current'.legacyCredential = false := by
  unfold reloadSession at h
  cases hsession : current.adminSessionId with
  | none =>
    simp only [hsession] at h
    cases h
    exact ⟨.inl hreload, hcurrent⟩
  | some sessionId =>
    have hkey : current.apiKeyId = none := by
      rcases reloadPrincipal_ok hreload with ⟨-, -, -, hnone, -⟩ | ⟨-, -, -, -, -, -, rfl⟩ |
        ⟨hkey, -, rfl⟩
      · rw [hsession] at hnone
        cases hnone
      · rfl
      · exact hkey
    have hagain : reloadPrincipal E db t' current = .ok current' := by
      unfold reloadPrincipal
      simp only [hkey, hsession] at h ⊢
      exact h
    exact ⟨.inr (reloadPrincipal_reload hreload hagain), reloadPrincipal_legacy hcurrent hagain⟩

/-- The actor that `_transaction_admin_principal` returns is the caller as reloaded from the tables, at
    a reading of the clock by the call. -/
theorem transactionAdminPrincipal_ok (hp : p.legacyCredential = false) {scope : Text}
    {scopes : List Text} {actor : Option PermissionContext}
    (h : transactionAdminPrincipal E db clock (some p) (scope :: scopes) = .ok actor) :
    ∃ n current, actor = some current ∧ current.legacyCredential = false ∧
      reloadPrincipal E db (clock n) p = .ok current := by
  obtain ⟨looped, hloop, h⟩ := Except.bind_ok_iff.mp h
  rw [authorizeForScopes] at hloop
  split at hloop
  · cases hloop
  · rename_i actor' hauth
    obtain ⟨first, rfl, hfirst⟩ := transactionAuthorizationPrincipal_ok hp hauth
    obtain ⟨n, current, rfl, hlegacy, hcurrent⟩ :=
      authorizeForScopes_ok (reloadPrincipal_legacy hp hfirst) hfirst hloop
    simp only [hlegacy, Bool.false_eq_true, if_false] at h
    obtain ⟨again, hagain, h⟩ := Except.bind_ok_iff.mp h
    obtain ⟨⟨⟩, -, h⟩ := Except.bind_ok_iff.mp h
    cases h
    obtain ⟨hreload | hreload, hlegacy'⟩ := reloadSession_ok hcurrent hlegacy hagain
    · exact ⟨n, again, rfl, hlegacy', hreload⟩
    · exact ⟨_, again, rfl, hlegacy', hreload⟩

/-- The scopes of a role are among the caller's, where a write scope implies the read scope. -/
def RoleWithin (current : PermissionContext) (role : AdminRole) : Prop :=
  ∀ scope ∈ role.scopes, scope ∈ effectiveScopes current.scopes

theorem assertRoleWithinPrincipal_ok (hlegacy : current.legacyCredential = false) {role : AdminRole}
    (h : assertRoleWithinPrincipal (some current) role = .ok ()) : RoleWithin current role := by
  unfold assertRoleWithinPrincipal at h
  simp only [hlegacy, Bool.false_eq_true, if_false] at h
  split at h
  · rename_i hall
    intro scope hscope
    simpa using List.all_eq_true.mp hall scope hscope
  · cases h

end Actor

/-! ## What a call touches -/

/-- Every other administrator and its sessions are as they were. -/
structure OtherAdminsKept (adminId : Nat) (db db' : AuthDb) : Prop where
  admin : ∀ other, other ≠ adminId → db'.admin? other = db.admin? other
  sessions : ∀ other, other ≠ adminId →
    db'.adminSessions.filter (fun x => x.adminId = other) =
      db.adminSessions.filter fun x => x.adminId = other

/-- The roles of an administrator before and after a call are within what the actor has in the
    tables the call finds, at one of its readings of the clock. -/
structure ActorContains (E : StdText) (clock : Nat → Timestamp) (p : PermissionContext) (adminId : Nat)
    (db db' : AuthDb) : Prop where
  actor : ∃ n current, reloadPrincipal E db (clock n) p = .ok current ∧
    (∀ row, db.admin? adminId = some row → RoleWithin current row.role) ∧
    (∀ row, db'.admin? adminId = some row → RoleWithin current row.role)

section Touched

variable {E : StdText} {digest : PasswordDigest} {clock : Nat → Timestamp} {p : PermissionContext}
  {db db' : AuthDb} {adminId : Nat}

theorem AuthDb.admin?_updateAdmin_ne (f : AdminRow → AdminRow) (hf : ∀ a, (f a).id = a.id) {other : Nat}
    (hne : other ≠ adminId) : (db.updateAdmin adminId f).admin? other = db.admin? other := by
  unfold AuthDb.updateAdmin AuthDb.admin?
  dsimp only
  induction db.admins with
  | nil => rfl
  | cons a rows ih =>
    by_cases hid : a.id = adminId
    · have hother : ¬ a.id = other := fun heq => hne (heq.symm.trans hid)
      simpa [updateWhere, hid, hf, Ne.symm hne] using ih
    · by_cases hsame : a.id = other
      · simp [updateWhere, hsame, hne]
      · simpa [updateWhere, hid, hsame] using ih

theorem filter_revokeWhere_ne {select : AdminSessionRow → Bool} (hselect : ∀ x, select x = true →
    x.adminId = adminId) {other : Nat} (hne : other ≠ adminId) (t : Timestamp)
    (sessions : List AdminSessionRow) :
    (revokeWhere select t sessions).filter (fun x => x.adminId = other) =
      sessions.filter fun x => x.adminId = other := by
  unfold revokeWhere
  induction sessions with
  | nil => rfl
  | cons x sessions ih =>
    cases hx : select x with
    | true =>
      have hid := hselect x hx
      simpa [updateWhere, hx, hid, Ne.symm hne] using ih
    | false =>
      by_cases hother : x.adminId = other
      · simpa [updateWhere, hx, hother] using ih
      · simpa [updateWhere, hx, hother] using ih

theorem OtherAdminsKept.rewrite (f : AdminRow → AdminRow) (hf : ∀ a, (f a).id = a.id) (t : Timestamp)
    (exceptSessionId : Option Text) :
    OtherAdminsKept adminId db
      ((db.updateAdmin adminId f).revokeAdminSessionsInConnection adminId t exceptSessionId) := by
  refine ⟨fun other hne => AuthDb.admin?_updateAdmin_ne f hf hne, fun other hne => ?_⟩
  refine filter_revokeWhere_ne ?_ hne t db.adminSessions
  intro x hx
  simp only [Bool.and_eq_true, decide_eq_true_eq] at hx
  exact hx.1.1

/-- One administrator is touched, and its roles are within the actor's scopes; only an update without
    a field is not checked, and it writes nothing. -/
theorem adminCall_touched (hp : p.legacyCredential = false) {call : AdminCall}
    (hdb : db.adminTables.Keyed)
    (h : call.operation E digest clock (some p) db = .ok (adminId, db')) :
    OtherAdminsKept adminId db db' ∧ (db' = db ∨ ActorContains E clock p adminId db db') := by
  cases call with
  | create args =>
    obtain ⟨row, -, h⟩ := Except.bind_ok_iff.mp h
    obtain ⟨⟨actor, hactor, hrole⟩, rfl, rfl⟩ := createAdminOperation_ok h
    obtain ⟨n, current, rfl, hlegacy, hreload⟩ := transactionAdminPrincipal_ok hp hactor
    have hnone : db.admin? (db.adminSeq + 1) = none := by
      refine find?_key_none.mpr ?_
      intro a ha heq
      have : a.id ≤ db.adminSeq := hdb.admin_seq a ha
      omega
    refine ⟨⟨?_, fun _ _ => rfl⟩, .inr ⟨n, current, hreload, ?_, ?_⟩⟩
    · intro other hne
      simp [AuthDb.admin?, Ne.symm hne]
    · intro row' hrow'
      rw [hnone] at hrow'
      cases hrow'
    · intro row' hrow'
      unfold AuthDb.admin? at hnone hrow'
      rw [List.find?_append, hnone] at hrow'
      simp only [Option.none_or, List.find?_cons_of_pos, decide_true, Option.some.injEq] at hrow'
      rw [← hrow']
      exact assertRoleWithinPrincipal_ok hlegacy hrole
  | update target changes now =>
    obtain ⟨changes', -, h⟩ := Except.bind_ok_iff.mp h
    split at h
    · obtain ⟨row, -, h⟩ := Except.bind_ok_iff.mp h
      cases h
      exact ⟨⟨fun _ _ => rfl, fun _ _ => rfl⟩, .inl rfl⟩
    · obtain ⟨rfl, row, hrow, ⟨actor, hactor, hbefore, hafter⟩, -, hdb'⟩ := updateAdminOperation_ok h
      obtain ⟨n, current, rfl, hlegacy, hreload⟩ := transactionAdminPrincipal_ok hp hactor
      have hfound : db'.admin? adminId = some (changes'.apply row) := by
        have hfind : (db.updateAdmin adminId changes'.apply).admin? adminId =
            (db.admin? adminId).map changes'.apply := AuthDb.admin?_updateAdmin fun _ => rfl
        rw [hrow] at hfind
        rw [hdb']
        split <;> exact hfind
      refine ⟨?_, .inr ⟨n, current, hreload, ?_, ?_⟩⟩
      · rw [hdb']
        split
        · exact OtherAdminsKept.rewrite changes'.apply (fun _ => rfl) now none
        · exact ⟨fun other hne => AuthDb.admin?_updateAdmin_ne changes'.apply (fun _ => rfl) hne,
            fun _ _ => rfl⟩
      · intro row' hrow'
        rw [hrow] at hrow'
        cases hrow'
        exact assertRoleWithinPrincipal_ok hlegacy hbefore
      · intro row' hrow'
        rw [hfound] at hrow'
        cases hrow'
        exact assertRoleWithinPrincipal_ok hlegacy hafter
  | delete target =>
    obtain ⟨rfl, row, hrow, ⟨actor, hactor, hrole⟩, -, hdb'⟩ := deleteAdminOperation_ok h
    obtain ⟨n, current, rfl, hlegacy, hreload⟩ := transactionAdminPrincipal_ok hp hactor
    rw [hdb']
    refine ⟨⟨fun other hne => find?_filter_ne hne db.admins, ?_⟩, .inr ⟨n, current, hreload, ?_, ?_⟩⟩
    · intro other hne
      show (db.adminSessions.filter _).filter _ = _
      rw [List.filter_filter]
      apply List.filter_congr
      intro x _
      by_cases hx : x.adminId = other
      · simp [hx, hne]
      · simp [hx]
    · intro row' hrow'
      rw [hrow] at hrow'
      cases hrow'
      exact assertRoleWithinPrincipal_ok hlegacy hrole
    · intro row' hrow'
      obtain ⟨hmem, hid⟩ := find?_key hrow'
      simpa [hid] using (List.mem_filter.mp hmem).2
  | resetPassword target newPassword salt mustChange now =>
    obtain ⟨⟨⟩, -, h⟩ := Except.bind_ok_iff.mp h
    obtain ⟨rfl, row, hrow, ⟨actor, hactor, hrole⟩, rfl⟩ := resetAdminPasswordOperation_ok h
    obtain ⟨n, current, rfl, hlegacy, hreload⟩ := transactionAdminPrincipal_ok hp hactor
    refine ⟨OtherAdminsKept.rewrite (.setPassword _ mustChange) (fun _ => rfl) now none, .inr ⟨n, current, hreload, ?_, ?_⟩⟩
    · intro row' hrow'
      rw [hrow] at hrow'
      cases hrow'
      exact assertRoleWithinPrincipal_ok hlegacy hrole
    · intro row' hrow'
      have hfind : (db.updateAdmin adminId
          (.setPassword (hashPassword digest salt newPassword) mustChange)).admin? adminId =
          (db.admin? adminId).map (.setPassword (hashPassword digest salt newPassword) mustChange) :=
        AuthDb.admin?_updateAdmin fun _ => rfl
      rw [hrow] at hfind
      cases hfind.symm.trans hrow'
      exact assertRoleWithinPrincipal_ok hlegacy hrole
  | revokeSessions target exceptSessionId now =>
    obtain ⟨rfl, row, hrow, ⟨actor, hactor, hrole⟩, rfl⟩ := revokeAdminSessionsOperation_ok h
    obtain ⟨n, current, rfl, hlegacy, hreload⟩ := transactionAdminPrincipal_ok hp hactor
    have hcovers : ∀ row', db.admin? adminId = some row' → RoleWithin current row'.role := by
      intro row' hrow'
      rw [hrow] at hrow'
      cases hrow'
      exact assertRoleWithinPrincipal_ok hlegacy hrole
    refine ⟨⟨fun _ _ => rfl, fun other hne => ?_⟩, .inr ⟨n, current, hreload, hcovers, hcovers⟩⟩
    refine filter_revokeWhere_ne ?_ hne now db.adminSessions
    intro x hx
    simp only [Bool.and_eq_true, decide_eq_true_eq] at hx
    exact hx.1.1

end Touched

/-! ## The last superadmin -/

/-- Some active superadmin exists. -/
def HasActiveSuperadmin (admins : List AdminRow) : Prop :=
  ∃ a ∈ admins, a.role = .superadmin ∧ a.isActive = true

section Superadmin

variable {db : AuthDb} {row : AdminRow} {adminId : Nat} {f : AdminRow → AdminRow}

/-- Among two active superadmins, one is not a given administrator. -/
theorem exists_other_superadmin (hids : UniqueKey AdminRow.id db.admins)
    (hcount : 1 < db.activeSuperadmins) (id : Nat) :
    ∃ a ∈ db.admins, a.id ≠ id ∧ a.role = .superadmin ∧ a.isActive = true := by
  unfold AuthDb.activeSuperadmins at hcount
  have hnodup := hids.filter fun a => a.role = .superadmin && a.isActive
  have hmem : ∀ a ∈ db.admins.filter (fun a => a.role = .superadmin && a.isActive),
      a ∈ db.admins ∧ a.role = .superadmin ∧ a.isActive = true := by
    intro a ha
    simpa using List.mem_filter.mp ha
  match hlist : db.admins.filter (fun a => a.role = .superadmin && a.isActive) with
  | [] => simp [hlist] at hcount
  | [_] => simp [hlist] at hcount
  | a :: b :: rest =>
    rw [hlist] at hnodup hmem
    have hne : a.id ≠ b.id := by
      have := List.nodup_cons.mp hnodup
      intro heq
      exact this.1 (by simp [heq])
    by_cases ha : a.id = id
    · obtain ⟨hb, hsuper⟩ := hmem b (by simp)
      exact ⟨b, hb, fun hb' => hne (ha.trans hb'.symm), hsuper⟩
    · obtain ⟨ha', hsuper⟩ := hmem a (by simp)
      exact ⟨a, ha', ha, hsuper⟩

/-- When the check passes, an active superadmin other than the row is there, or the row stays one. -/
theorem ensureActiveSuperadminRemains_ok (hids : UniqueKey AdminRow.id db.admins)
    (hhas : HasActiveSuperadmin db.admins) (hrow : db.admin? adminId = some row) {nextRole : AdminRole}
    {nextIsActive deleting : Bool}
    (h : ensureActiveSuperadminRemains db row nextRole nextIsActive deleting = .ok ()) :
    (∃ a ∈ db.admins, a.id ≠ adminId ∧ a.role = .superadmin ∧ a.isActive = true) ∨
      (deleting = false ∧ nextRole = .superadmin ∧ nextIsActive = true) := by
  obtain ⟨hmem, hid⟩ := find?_key hrow
  unfold ensureActiveSuperadminRemains at h
  split at h
  · rename_i hnot
    obtain ⟨a, ha, hrole, hactive⟩ := hhas
    refine .inl ⟨a, ha, ?_, hrole, hactive⟩
    intro heq
    rw [← hids.eq_of_mem ha hmem (heq.trans hid.symm)] at hnot
    simp [hrole, hactive] at hnot
  · split at h
    · rename_i hstays
      simp only [Bool.and_eq_true, Bool.not_eq_true', decide_eq_true_eq] at hstays
      exact .inr ⟨hstays.1.1, hstays.1.2, hstays.2⟩
    · split at h
      · cases h
      · exact .inl (exists_other_superadmin hids (by omega) adminId)

/-- An update of one administrator, when another superadmin is there or it stays one. -/
theorem HasActiveSuperadmin.rewrite (hrow : db.admin? adminId = some row)
    (h : (∃ a ∈ db.admins, a.id ≠ adminId ∧ a.role = .superadmin ∧ a.isActive = true) ∨
      ((f row).role = .superadmin ∧ (f row).isActive = true)) :
    HasActiveSuperadmin (db.updateAdmin adminId f).admins := by
  rcases h with ⟨a, ha, hne, hsuper⟩ | hsuper
  · exact ⟨a, mem_updateWhere.mpr ⟨a, ha, by simp [hne]⟩, hsuper⟩
  · obtain ⟨hmem, hid⟩ := find?_key hrow
    exact ⟨f row, mem_updateWhere.mpr ⟨row, hmem, by simp [hid]⟩, hsuper⟩

/-- An update that leaves roles and activity alone. -/
theorem HasActiveSuperadmin.updateWhere {admins : List AdminRow} (h : HasActiveSuperadmin admins)
    (select : AdminRow → Bool) (hrole : ∀ a, (f a).role = a.role)
    (hactive : ∀ a, (f a).isActive = a.isActive) :
    HasActiveSuperadmin (updateWhere select f admins) := by
  obtain ⟨a, ha, hsuper⟩ := h
  refine ⟨_, mem_updateWhere.mpr ⟨a, ha, rfl⟩, ?_⟩
  split
  · rw [hrole, hactive]
    exact hsuper
  · exact hsuper

end Superadmin

section Steps

variable {E : StdText} {digest : PasswordDigest} {s s' : AuthSystem}

theorem HasActiveSuperadmin.adminCall (hs : s.Sound) (h : HasActiveSuperadmin s.db.admins)
    (principal : Option PermissionContext) (clock : Nat → Timestamp) (call : AdminCall) :
    HasActiveSuperadmin (s.adminCall E digest principal clock call).db.admins := by
  have hids : UniqueKey AdminRow.id s.db.admins := hs.keyed.admin_ids
  unfold AuthSystem.adminCall AuthDb.execute
  cases hop : call.operation E digest clock principal s.db with
  | error e => exact h
  | ok result =>
    obtain ⟨id, db'⟩ := result
    cases call with
    | create args =>
      obtain ⟨row, -, hop⟩ := Except.bind_ok_iff.mp hop
      obtain ⟨-, -, rfl⟩ := createAdminOperation_ok hop
      obtain ⟨a, ha, hsuper⟩ := h
      exact ⟨a, List.mem_append_left _ ha, hsuper⟩
    | update target changes now =>
      obtain ⟨changes', -, hop⟩ := Except.bind_ok_iff.mp hop
      split at hop
      · obtain ⟨row, -, hop⟩ := Except.bind_ok_iff.mp hop
        cases hop
        exact h
      · obtain ⟨rfl, row, hrow, -, hremains, hdb'⟩ := updateAdminOperation_ok hop
        have hafter : HasActiveSuperadmin (s.db.updateAdmin id changes'.apply).admins := by
          refine HasActiveSuperadmin.rewrite hrow ?_
          exact (ensureActiveSuperadminRemains_ok hids h hrow hremains).imp_right And.right
        have hadmins : db'.admins = (s.db.updateAdmin id changes'.apply).admins := by
          rw [hdb']
          split <;> rfl
        exact hadmins ▸ hafter
    | delete target =>
      obtain ⟨rfl, row, hrow, -, hremains, hdb'⟩ := deleteAdminOperation_ok hop
      rw [hdb']
      rcases ensureActiveSuperadminRemains_ok hids h hrow hremains with ⟨a, ha, hne, hsuper⟩ | ⟨hno, -⟩
      · exact ⟨a, List.mem_filter.mpr ⟨ha, by simpa using hne⟩, hsuper⟩
      · cases hno
    | resetPassword target newPassword salt mustChange now =>
      obtain ⟨⟨⟩, -, hop⟩ := Except.bind_ok_iff.mp hop
      obtain ⟨rfl, row, -, -, rfl⟩ := resetAdminPasswordOperation_ok hop
      exact h.updateWhere _ (fun _ => rfl) fun _ => rfl
    | revokeSessions target exceptSessionId now =>
      obtain ⟨rfl, row, -, -, rfl⟩ := revokeAdminSessionsOperation_ok hop
      exact h

theorem HasActiveSuperadmin.step (hs : s.Sound) (h : HasActiveSuperadmin s.db.admins)
    {action : AuthAction} (hstep : s.step E digest action = some s') :
    HasActiveSuperadmin s'.db.admins := by
  cases action with
  | loadAndVerify i username password =>
    simp only [AuthSystem.step] at hstep
    split at hstep
    · split at hstep <;> cases hstep <;> exact h
    · cases hstep
  | finalizeAuthentication i =>
    simp only [AuthSystem.step, AuthDb.execute] at hstep
    split at hstep
    · rename_i row _
      cases hop : finalizeAuthentication row s.db with
      | error e =>
        rw [hop] at hstep
        cases hstep
        exact h
      | ok result =>
        rw [hop] at hstep
        cases hstep
        have hdb : result.2 = s.db := finalizeAuthentication_ok hop
        simpa [hdb] using h
    · cases hstep
  | createSession i draw =>
    simp only [AuthSystem.step] at hstep
    split at hstep
    · rename_i adminId proof _
      cases hstep
      unfold AuthSystem.createSession AuthDb.execute
      cases hop : createSessionOperation adminId (some proof) draw s.db with
      | error e => exact h
      | ok result =>
        obtain ⟨⟨⟩, db'⟩ := result
        obtain ⟨-, -, row, -, -, rfl⟩ := createSessionOperation_ok hop
        exact h
    · cases hstep
  | verifyAndHash i adminId currentPassword newPassword salt currentSessionId =>
    simp only [AuthSystem.step] at hstep
    split at hstep
    · split at hstep <;> cases hstep <;> exact h
    · cases hstep
  | changePassword i updatedAt =>
    simp only [AuthSystem.step] at hstep
    split at hstep
    · rename_i adminId passwordHash expected current _
      cases hstep
      unfold AuthSystem.changePassword AuthDb.execute
      cases hop : changeAdminPasswordOperation adminId passwordHash expected current updatedAt s.db with
      | error e => exact h
      | ok result =>
        obtain ⟨⟨⟩, db'⟩ := result
        have hdb' := changeAdminPasswordOperation_ok hop
        subst hdb'
        exact h.updateWhere _ (fun _ => rfl) fun _ => rfl
    · cases hstep
  | revokeSession sessionId revokedAt =>
    cases hstep
    exact h
  | adminCall principal clock call =>
    cases hstep
    exact h.adminCall hs principal clock call
  | keyCall principal now call =>
    cases hstep
    unfold AuthDb.execute
    cases hop : call.operation E now principal s.db with
    | error e => exact h
    | ok result => simpa [(AuthDb.SameAdmins.keyCall hop).admins] using h

/-- The invariant together with an active superadmin. -/
def AuthSystem.Guarded (s : AuthSystem) : Prop := s.Sound ∧ HasActiveSuperadmin s.db.admins

theorem AuthSystem.Guarded.step (h : s.Guarded) {action : AuthAction}
    (hstep : s.step E digest action = some s') : s'.Guarded :=
  ⟨AuthSystem.Sound.step h.1 hstep, HasActiveSuperadmin.step h.1 h.2 hstep⟩

end Steps

/-- In every run, a call by a reloadable actor that commits touches one administrator, whose roles
    before and after are within what the actor has at that point; a refused call changes nothing; and
    an active superadmin, once there, is there in every later state. -/
theorem admin_authority {E : StdText} {digest : PasswordDigest} {db : AuthDb} (hdb : db.Consistent)
    {actions : List AuthAction} {s : AuthSystem}
    (hrun : (AuthSystem.start db).run E digest actions = some s) :
    (∀ p : PermissionContext, p.legacyCredential = false → ∀ clock call,
      (∀ adminId, (s.db.execute (call.operation E digest clock (some p))).1 = .ok adminId →
        OtherAdminsKept adminId s.db (s.adminCall E digest (some p) clock call).db ∧
        ((s.adminCall E digest (some p) clock call).db = s.db ∨
          ActorContains E clock p adminId s.db (s.adminCall E digest (some p) clock call).db)) ∧
      (∀ e, (s.db.execute (call.operation E digest clock (some p))).1 = .error e →
        (s.adminCall E digest (some p) clock call).db = s.db)) ∧
    (HasActiveSuperadmin s.db.admins → ∀ later s', s.run E digest later = some s' →
      HasActiveSuperadmin s'.db.admins) := by
  have hs : s.Sound :=
    Transition.run_invariant (fun _ _ _ h hstep => AuthSystem.Sound.step h hstep)
      (AuthSystem.start_sound hdb) hrun
  refine ⟨?_, ?_⟩
  · intro p hp clock call
    unfold AuthSystem.adminCall AuthDb.execute
    cases hop : call.operation E digest clock (some p) s.db with
    | error e => exact ⟨nofun, fun _ _ => rfl⟩
    | ok result =>
      refine ⟨?_, nofun⟩
      rintro adminId ⟨⟩
      exact adminCall_touched hp hs.keyed hop
  · intro hhas later s' hlater
    have hguarded : s.Guarded := ⟨hs, hhas⟩
    have hlast : s'.Guarded :=
      Transition.run_invariant (fun _ _ _ h hstep => AuthSystem.Guarded.step h hstep) hguarded hlater
    exact hlast.2

/-- The first administrator, in the session it opened, makes the second an operator; then it tries to
    deactivate itself. -/
def sampleSelfDemotion : List AuthAction :=
  [.adminCall (some (roleContext .superadmin (some 1) (some "s1".toList))) (fun _ => 50)
      (.update 2 ⟨none, none, some .operator, none, none⟩ 50),
    .adminCall (some (roleContext .superadmin (some 1) (some "s1".toList))) (fun _ => 60)
      (.update 1 ⟨none, none, none, some false, none⟩ 60)]

/-- The promotion is within the first administrator's scopes, and it stays a superadmin. -/
theorem admin_authority_sample :
    ∃ s s', (AuthSystem.start .sampleAdmins).run .sample sampleDigest (sampleLogins.take 3) = some s ∧
      s.run .sample sampleDigest sampleSelfDemotion = some s' ∧
      OtherAdminsKept 2 s.db (s.adminCall .sample sampleDigest
        (some (roleContext .superadmin (some 1) (some "s1".toList))) (fun _ => 50)
        (.update 2 ⟨none, none, some .operator, none, none⟩ 50)).db ∧
      HasActiveSuperadmin s'.db.admins := by
  have heval : ((AuthSystem.start .sampleAdmins).run .sample sampleDigest (sampleLogins.take 3)).map
      (fun s => ((s.db.execute ((AdminCall.update 2 ⟨none, none, some .operator, none, none⟩
          50).operation .sample sampleDigest (fun _ => 50)
            (some (roleContext .superadmin (some 1) (some "s1".toList))))).1,
        s.db.admins.any (fun a => a.role = .superadmin && a.isActive),
        (s.run .sample sampleDigest sampleSelfDemotion).isSome)) = some (.ok 2, true, true) := by
    decide +kernel
  obtain ⟨s, hrun, hs⟩ := Option.map_eq_some_iff.mp heval
  obtain ⟨hok, hs⟩ := Prod.mk.inj hs
  obtain ⟨hany, hlater⟩ := Prod.mk.inj hs
  obtain ⟨s', hlater⟩ := Option.isSome_iff_exists.mp hlater
  have hhas : HasActiveSuperadmin s.db.admins := by
    obtain ⟨a, ha, hsuper⟩ := List.any_eq_true.mp hany
    exact ⟨a, ha, by simpa using hsuper⟩
  obtain ⟨hcalls, hsuper⟩ := admin_authority AuthDb.sampleAdmins_consistent hrun
  exact ⟨s, s', hrun, hlater, ((hcalls _ rfl _ _).1 2 hok).1, hsuper hhas _ s' hlater⟩

end RapidInbox

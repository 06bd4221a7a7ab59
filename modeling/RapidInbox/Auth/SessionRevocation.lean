import RapidInbox.Auth.AdminOperations
import RapidInbox.Auth.Delegation

/-!
# Sessions and the passwords behind them

In every interleaving of logins, password changes and administration, a session that is not revoked
was created under the hash its administrator has now, or is the one session that the last password
change kept; and a session that was there when its administrator was deactivated stays revoked.
-/

namespace RapidInbox

open Table

/-- The administrators, their sequence and the sessions. -/
structure AdminTables where
  admins : List AdminRow
  adminSeq : Nat
  sessions : List AdminSessionRow

def AuthDb.adminTables (db : AuthDb) : AdminTables := ⟨db.admins, db.adminSeq, db.adminSessions⟩

theorem AuthDb.SameAdmins.adminTables_eq {db db' : AuthDb} (h : db.SameAdmins db') :
    db'.adminTables = db.adminTables := by
  simp [AuthDb.adminTables, h.admins, h.adminSeq, h.adminSessions]

/-- The keys of the two tables. -/
structure AdminTables.Keyed (t : AdminTables) : Prop where
  admin_ids : UniqueKey AdminRow.id t.admins
  admin_seq : ∀ a ∈ t.admins, a.id ≤ t.adminSeq
  session_ids : UniqueKey AdminSessionRow.id t.sessions
  session_admins : ∀ x ∈ t.sessions, ∃ a ∈ t.admins, a.id = x.adminId

theorem AuthDb.Consistent.adminTables {db : AuthDb} (h : db.Consistent) : db.adminTables.Keyed :=
  ⟨h.admin_ids, h.admin_seq, h.session_ids, h.session_admins⟩

/-- The invariant.  An administrator that is gone does not come back, so a session it had does not
    either. -/
structure SessionsSound (t : AdminTables) (createdUnder : Text → Option Text)
    (kept : Nat → Option Text) (stopped : List (Text × Nat)) : Prop where
  keyed : t.Keyed
  proved : ∀ x ∈ t.sessions, x.revokedAt = none → ∀ a ∈ t.admins, a.id = x.adminId →
    createdUnder x.id = some a.passwordHash ∨ kept a.id = some x.id
  revoked : ∀ q ∈ stopped, ∀ x ∈ t.sessions, x.id = q.1 → x.adminId = q.2 → x.revokedAt ≠ none
  known : ∀ q ∈ stopped, q.2 ≤ t.adminSeq ∧
    ((∃ x ∈ t.sessions, x.id = q.1 ∧ x.adminId = q.2) ∨ ∀ a ∈ t.admins, a.id ≠ q.2)

/-! ## Revoking -/

section Revoke

variable {sessions : List AdminSessionRow} {select : AdminSessionRow → Bool} {t : Timestamp}
  {y : AdminSessionRow}

/-- The rows that an update of `revoked_at` leaves. -/
def revokeWhere (select : AdminSessionRow → Bool) (t : Timestamp) (sessions : List AdminSessionRow) :
    List AdminSessionRow :=
  updateWhere select (fun s => { s with revokedAt := s.revokedAt.or (some t) }) sessions

/-- A row that is not revoked afterwards was there before, and was not selected. -/
theorem mem_revokeWhere (h : y ∈ revokeWhere select t sessions) :
    ∃ x ∈ sessions, y.id = x.id ∧ y.adminId = x.adminId ∧
      (y.revokedAt = none → x = y ∧ select x = false) := by
  obtain ⟨x, hx, rfl⟩ := mem_updateWhere.mp h
  refine ⟨x, hx, ?_⟩
  cases hselect : select x with
  | false => exact ⟨rfl, rfl, fun _ => ⟨rfl, rfl⟩⟩
  | true => simp

theorem exists_revokeWhere (hy : y ∈ sessions) :
    ∃ x ∈ revokeWhere select t sessions, x.id = y.id ∧ x.adminId = y.adminId := by
  refine ⟨_, mem_updateWhere.mpr ⟨y, hy, rfl⟩, ?_⟩
  split <;> exact ⟨rfl, rfl⟩

theorem revokeWhere_ids (h : UniqueKey AdminSessionRow.id sessions) :
    UniqueKey AdminSessionRow.id (revokeWhere select t sessions) :=
  UniqueKey.updateWhere h fun _ => rfl

end Revoke

/-! ## The changes of the tables -/

section Changes

variable {t : AdminTables} {createdUnder : Text → Option Text} {kept : Nat → Option Text}
  {stopped : List (Text × Nat)} {adminId : Nat} {f : AdminRow → AdminRow}

/-- A new administrator has no session yet. -/
theorem SessionsSound.addAdmin (h : SessionsSound t createdUnder kept stopped) (row : AdminRow) :
    SessionsSound
      ⟨t.admins ++ [{ row with id := t.adminSeq + 1 }], t.adminSeq + 1, t.sessions⟩
      createdUnder kept stopped := by
  have hnew : ∀ a ∈ t.admins, a.id ≠ t.adminSeq + 1 := by
    intro a ha heq
    have := h.keyed.admin_seq a ha
    omega
  refine ⟨⟨h.keyed.admin_ids.append_singleton hnew, ?_, h.keyed.session_ids, ?_⟩, ?_, h.revoked, ?_⟩
  · intro a ha
    rcases List.mem_append.mp ha with ha | ha
    · exact Nat.le_succ_of_le (h.keyed.admin_seq a ha)
    · rw [List.mem_singleton.mp ha]
  · intro x hx
    obtain ⟨a, ha, hid⟩ := h.keyed.session_admins x hx
    exact ⟨a, List.mem_append_left _ ha, hid⟩
  · intro x hx hlive a ha hid
    rcases List.mem_append.mp ha with ha | ha
    · exact h.proved x hx hlive a ha hid
    · obtain ⟨b, hb, hbx⟩ := h.keyed.session_admins x hx
      rw [List.mem_singleton.mp ha] at hid
      exact absurd (hbx.trans hid.symm) (hnew b hb)
  · intro q hq
    obtain ⟨hseq, hknown⟩ := h.known q hq
    refine ⟨Nat.le_succ_of_le hseq, hknown.imp_right ?_⟩
    intro hgone a ha
    rcases List.mem_append.mp ha with ha | ha
    · exact hgone a ha
    · rw [List.mem_singleton.mp ha]
      show t.adminSeq + 1 ≠ q.2
      omega

/-- The keys after rows of administrators are rewritten and sessions revoked. -/
theorem AdminTables.Keyed.rewrite (h : t.Keyed) (hid : ∀ a, (f a).id = a.id)
    (select : AdminSessionRow → Bool) (at' : Timestamp) :
    (⟨updateWhere (fun a => a.id = adminId) f t.admins, t.adminSeq,
      revokeWhere select at' t.sessions⟩ : AdminTables).Keyed := by
  have hids : ∀ a : AdminRow, (if decide (a.id = adminId) then f a else a).id = a.id := by
    intro a
    split
    · exact hid a
    · rfl
  refine ⟨h.admin_ids.updateWhere hid, ?_, revokeWhere_ids h.session_ids, ?_⟩
  · intro b hb
    obtain ⟨a, ha, rfl⟩ := mem_updateWhere.mp hb
    rw [hids]
    exact h.admin_seq a ha
  · intro y hy
    obtain ⟨x, hx, -, hadmin, -⟩ := mem_revokeWhere hy
    obtain ⟨a, ha, hax⟩ := h.session_admins x hx
    exact ⟨_, mem_updateWhere.mpr ⟨a, ha, rfl⟩, by rw [hids, hax, hadmin]⟩

/-- What was said about the sessions of deactivated administrators still holds after a rewrite. -/
theorem SessionsSound.stopped_rewrite (h : SessionsSound t createdUnder kept stopped)
    (hid : ∀ a, (f a).id = a.id) (adminId : Nat) (select : AdminSessionRow → Bool) (at' : Timestamp) :
    ∀ q ∈ stopped,
      (∀ x ∈ revokeWhere select at' t.sessions, x.id = q.1 → x.adminId = q.2 → x.revokedAt ≠ none) ∧
      q.2 ≤ t.adminSeq ∧
      ((∃ x ∈ revokeWhere select at' t.sessions, x.id = q.1 ∧ x.adminId = q.2) ∨
        ∀ a ∈ updateWhere (fun a => a.id = adminId) f t.admins, a.id ≠ q.2) := by
  intro q hq
  obtain ⟨hseq, hknown⟩ := h.known q hq
  refine ⟨?_, hseq, ?_⟩
  · intro y hy hyid hyadmin hlive
    obtain ⟨x, hx, hxid, hxadmin, hsame⟩ := mem_revokeWhere hy
    obtain ⟨rfl, -⟩ := hsame hlive
    exact h.revoked q hq x hx hyid hyadmin hlive
  · rcases hknown with ⟨x, hx, hxid, hxadmin⟩ | hgone
    · obtain ⟨y, hy, hyid, hyadmin⟩ := exists_revokeWhere hx
      exact .inl ⟨y, hy, hyid.trans hxid, hyadmin.trans hxadmin⟩
    · refine .inr ?_
      intro b hb
      obtain ⟨a, ha, rfl⟩ := mem_updateWhere.mp hb
      split
      · rw [hid]
        exact hgone a ha
      · exact hgone a ha

/-- An update that leaves the hashes alone, together with any revocation. -/
theorem SessionsSound.rewrite (h : SessionsSound t createdUnder kept stopped) (adminId : Nat)
    (f : AdminRow → AdminRow) (hid : ∀ a, (f a).id = a.id) (hhash : ∀ a, (f a).passwordHash = a.passwordHash)
    (select : AdminSessionRow → Bool) (at' : Timestamp) :
    SessionsSound ⟨updateWhere (fun a => a.id = adminId) f t.admins, t.adminSeq,
      revokeWhere select at' t.sessions⟩ createdUnder kept stopped := by
  have hstopped := h.stopped_rewrite hid adminId select at'
  refine ⟨h.keyed.rewrite hid select at', ?_, fun q hq => (hstopped q hq).1,
    fun q hq => (hstopped q hq).2⟩
  intro y hy hlive b hb hby
  obtain ⟨x, hx, -, -, hsame⟩ := mem_revokeWhere hy
  obtain ⟨rfl, -⟩ := hsame hlive
  obtain ⟨a, ha, rfl⟩ := mem_updateWhere.mp hb
  split at hby
  · rw [hid] at hby
    rw [if_pos ‹_›, hid, hhash]
    exact h.proved x hx hlive a ha hby
  · rw [if_neg ‹_›]
    exact h.proved x hx hlive a ha hby

/-- A new password revokes the sessions of its administrator, all but the one it keeps. -/
theorem SessionsSound.setPassword (h : SessionsSound t createdUnder kept stopped) (adminId : Nat)
    (f : AdminRow → AdminRow) (hid : ∀ a, (f a).id = a.id) (at' : Timestamp) (current : Option Text) :
    SessionsSound ⟨updateWhere (fun a => a.id = adminId) f t.admins, t.adminSeq,
      revokeWhere (fun x => x.adminId = adminId && current ≠ some x.id && x.revokedAt.isNone) at'
        t.sessions⟩ createdUnder (Function.update kept adminId current) stopped := by
  have hstopped := h.stopped_rewrite hid adminId
    (fun x => x.adminId = adminId && current ≠ some x.id && x.revokedAt.isNone) at'
  refine ⟨h.keyed.rewrite hid _ at', ?_, fun q hq => (hstopped q hq).1,
    fun q hq => (hstopped q hq).2⟩
  intro y hy hlive b hb hby
  obtain ⟨x, hx, -, -, hsame⟩ := mem_revokeWhere hy
  obtain ⟨rfl, hselect⟩ := hsame hlive
  obtain ⟨a, ha, rfl⟩ := mem_updateWhere.mp hb
  by_cases hadmin : a.id = adminId
  · -- a session of the administrator is left only if it is the current one
    simp only [hadmin, decide_true, if_true, hid] at hby ⊢
    have hcurrent : current = some x.id := by
      simpa [← hby, hlive] using hselect
    exact .inr (by rw [Function.update_self, hcurrent])
  · simp only [hadmin, decide_false, Bool.false_eq_true, if_false] at hby ⊢
    rw [Function.update_of_ne hadmin]
    exact h.proved x hx hlive a ha hby

/-- The administrator goes with its sessions. -/
theorem SessionsSound.removeAdmin (h : SessionsSound t createdUnder kept stopped) (adminId : Nat) :
    SessionsSound ⟨t.admins.filter fun a => a.id ≠ adminId, t.adminSeq,
      t.sessions.filter fun x => x.adminId ≠ adminId⟩ createdUnder kept stopped := by
  refine ⟨⟨h.keyed.admin_ids.filter _, ?_, h.keyed.session_ids.filter _, ?_⟩, ?_, ?_, ?_⟩
  · intro a ha
    exact h.keyed.admin_seq a (List.mem_filter.mp ha).1
  · intro x hx
    obtain ⟨hx, hne⟩ := List.mem_filter.mp hx
    obtain ⟨a, ha, hid⟩ := h.keyed.session_admins x hx
    exact ⟨a, List.mem_filter.mpr ⟨ha, by simpa [hid] using hne⟩, hid⟩
  · intro x hx hlive a ha
    exact h.proved x (List.mem_filter.mp hx).1 hlive a (List.mem_filter.mp ha).1
  · intro q hq x hx
    exact h.revoked q hq x (List.mem_filter.mp hx).1
  · intro q hq
    obtain ⟨hseq, hknown⟩ := h.known q hq
    refine ⟨hseq, ?_⟩
    by_cases hgone : q.2 = adminId
    · refine .inr ?_
      intro a ha
      rw [hgone]
      simpa using (List.mem_filter.mp ha).2
    · rcases hknown with ⟨x, hx, hxid, hxadmin⟩ | hgone
      · exact .inl ⟨x, List.mem_filter.mpr ⟨hx, by simpa [hxadmin] using hgone⟩, hxid, hxadmin⟩
      · exact .inr fun a ha => hgone a (List.mem_filter.mp ha).1

/-- A session is opened under the hash the administrator has. -/
theorem SessionsSound.addSession (h : SessionsSound t createdUnder kept stopped) {a : AdminRow}
    (ha : a ∈ t.admins) {x : AdminSessionRow} (hx : x.adminId = a.id)
    (hfree : ∀ y ∈ t.sessions, y.id ≠ x.id) :
    SessionsSound ⟨t.admins, t.adminSeq, t.sessions ++ [x]⟩
      (Function.update createdUnder x.id (some a.passwordHash)) kept stopped := by
  refine ⟨⟨h.keyed.admin_ids, h.keyed.admin_seq, h.keyed.session_ids.append_singleton hfree, ?_⟩,
    ?_, ?_, ?_⟩
  · intro y hy
    rcases List.mem_append.mp hy with hy | hy
    · exact h.keyed.session_admins y hy
    · rw [List.mem_singleton.mp hy]
      exact ⟨a, ha, hx.symm⟩
  · intro y hy hlive b hb hby
    rcases List.mem_append.mp hy with hy | hy
    · rw [Function.update_of_ne (hfree y hy)]
      exact h.proved y hy hlive b hb hby
    · rw [List.mem_singleton.mp hy] at hby ⊢
      rw [Function.update_self, h.keyed.admin_ids.eq_of_mem hb ha (hby.trans hx)]
      exact .inl rfl
  · intro q hq y hy hid hadmin
    rcases List.mem_append.mp hy with hy | hy
    · exact h.revoked q hq y hy hid hadmin
    · -- the stopped session is still there, or its administrator is gone
      rw [List.mem_singleton.mp hy] at hid hadmin
      rcases (h.known q hq).2 with ⟨z, hz, hzid, -⟩ | hgone
      · exact absurd (hzid.trans hid.symm) (hfree z hz)
      · exact absurd (hx.symm.trans hadmin) (hgone a ha)
  · intro q hq
    obtain ⟨hseq, hknown⟩ := h.known q hq
    refine ⟨hseq, hknown.imp_left ?_⟩
    rintro ⟨y, hy, hyid⟩
    exact ⟨y, List.mem_append_left _ hy, hyid⟩

/-- The sessions of an administrator, once they are all revoked. -/
theorem SessionsSound.stop (h : SessionsSound t createdUnder kept stopped) {more : List (Text × Nat)}
    (hmore : ∀ q ∈ more, (∃ x ∈ t.sessions, x.id = q.1 ∧ x.adminId = q.2) ∧
      ∀ x ∈ t.sessions, x.adminId = q.2 → x.revokedAt ≠ none) :
    SessionsSound t createdUnder kept (more ++ stopped) := by
  refine ⟨h.keyed, h.proved, ?_, ?_⟩
  · intro q hq x hx hid hadmin
    rcases List.mem_append.mp hq with hq | hq
    · exact (hmore q hq).2 x hx hadmin
    · exact h.revoked q hq x hx hid hadmin
  · intro q hq
    rcases List.mem_append.mp hq with hq | hq
    · obtain ⟨⟨x, hx, hid, hadmin⟩, -⟩ := hmore q hq
      obtain ⟨a, ha, hax⟩ := h.keyed.session_admins x hx
      refine ⟨?_, .inl ⟨x, hx, hid, hadmin⟩⟩
      rw [← hadmin, ← hax]
      exact h.keyed.admin_seq a ha
    · exact h.known q hq

theorem revokeWhere_none (at' : Timestamp) (sessions : List AdminSessionRow) :
    revokeWhere (fun _ => false) at' sessions = sessions := by
  simp [revokeWhere, updateWhere]

/-- Revoking alone. -/
theorem SessionsSound.revoke (h : SessionsSound t createdUnder kept stopped)
    (select : AdminSessionRow → Bool) (at' : Timestamp) :
    SessionsSound ⟨t.admins, t.adminSeq, revokeWhere select at' t.sessions⟩ createdUnder kept
      stopped := by
  have hsame : updateWhere (fun a : AdminRow => a.id = 0) id t.admins = t.admins := by
    simp [updateWhere]
  have hrewrite := h.rewrite 0 id (fun _ => rfl) (fun _ => rfl) select at'
  rwa [hsame] at hrewrite

end Changes

/-! ## Steps -/

section Steps

variable {E : StdText} {digest : PasswordDigest} {s s' : AuthSystem} {db db' : AuthDb} {adminId : Nat}

def AuthSystem.Sound (s : AuthSystem) : Prop :=
  SessionsSound s.db.adminTables s.createdUnder s.kept s.stopped

/-- A call after which an active administrator is still active, or gone, stops nothing. -/
theorem newlyStopped_eq_nil
    (h : ∀ a b, db.admin? adminId = some a → db'.admin? adminId = some b → a.isActive = true →
      b.isActive = true) : AuthSystem.newlyStopped db db' adminId = [] := by
  unfold AuthSystem.newlyStopped
  split
  · rename_i hboth
    simp only [Bool.and_eq_true, Option.any_eq_true] at hboth
    obtain ⟨⟨a, ha, hactive⟩, b, hb, hinactive⟩ := hboth
    simp [h a b ha hb hactive] at hinactive
  · rfl

theorem AuthDb.admin?_updateAdmin {f : AdminRow → AdminRow} (hf : ∀ a, (f a).id = a.id) :
    (db.updateAdmin adminId f).admin? adminId = (db.admin? adminId).map f :=
  find?_updateWhere hf db.admins adminId

/-- An update that leaves `is_active` alone. -/
theorem activity_kept {f : AdminRow → AdminRow} (hid : ∀ a, (f a).id = a.id)
    (hactive : ∀ a, (f a).isActive = a.isActive) {a b : AdminRow} (ha : db.admin? adminId = some a)
    (hb : (db.updateAdmin adminId f).admin? adminId = some b) (h : a.isActive = true) :
    b.isActive = true := by
  rw [AuthDb.admin?_updateAdmin hid, ha] at hb
  cases hb
  rw [hactive]
  exact h

/-- `update_admin`, with the sessions it stops. -/
theorem SessionsSound.updateAdmin {createdUnder : Text → Option Text} {kept : Nat → Option Text}
    {stopped : List (Text × Nat)} (h : SessionsSound db.adminTables createdUnder kept stopped)
    {row : AdminRow} (hrow : db.admin? adminId = some row) {changes : AdminChanges} {now : Timestamp}
    (hdb' : db' = if row.isActive && !(changes.apply row).isActive then
        (db.updateAdmin adminId changes.apply).revokeAdminSessionsInConnection adminId now none
      else db.updateAdmin adminId changes.apply) :
    SessionsSound db'.adminTables createdUnder kept
      (AuthSystem.newlyStopped db db' adminId ++ stopped) := by
  have hafter : (db.updateAdmin adminId changes.apply).admin? adminId = some (changes.apply row) := by
    have hfind : (db.updateAdmin adminId changes.apply).admin? adminId =
        (db.admin? adminId).map changes.apply := AuthDb.admin?_updateAdmin fun _ => rfl
    rw [hfind, hrow]
    rfl
  split at hdb'
  · subst hdb'
    refine (h.rewrite adminId changes.apply (fun _ => rfl) (fun _ => rfl) _ now).stop ?_
    intro q hq
    unfold AuthSystem.newlyStopped at hq
    split at hq
    · obtain ⟨x, hx, rfl⟩ := List.mem_map.mp hq
      obtain ⟨hx, hadmin⟩ := List.mem_filter.mp hx
      have hadmin : x.adminId = adminId := by simpa using hadmin
      refine ⟨exists_revokeWhere hx, ?_⟩
      intro y hy hyadmin hlive
      obtain ⟨z, -, -, -, hsame⟩ := mem_revokeWhere hy
      obtain ⟨rfl, hselect⟩ := hsame hlive
      simp [hyadmin, hadmin, hlive] at hselect
    · cases hq
  · rename_i hbranch
    subst hdb'
    rw [newlyStopped_eq_nil, List.nil_append]
    · have hrewrite := h.rewrite adminId changes.apply (fun _ => rfl) (fun _ => rfl)
        (fun _ => false) now
      rwa [revokeWhere_none] at hrewrite
    · intro a b ha hb hactive
      rw [hrow] at ha
      rw [hafter] at hb
      cases ha
      cases hb
      simpa [hactive] using hbranch

theorem AuthSystem.Sound.adminCall (h : s.Sound) (principal : Option PermissionContext)
    (clock : Nat → Timestamp) (call : AdminCall) :
    (s.adminCall E digest principal clock call).Sound := by
  unfold AuthSystem.adminCall AuthDb.execute
  cases hop : call.operation E digest clock principal s.db with
  | error e => exact h
  | ok result =>
    obtain ⟨id, db'⟩ := result
    cases call with
    | create args =>
      obtain ⟨row, -, hop⟩ := Except.bind_ok_iff.mp hop
      obtain ⟨-, rfl, rfl⟩ := createAdminOperation_ok hop
      have hnone : s.db.admin? (s.db.adminSeq + 1) = none := by
        refine find?_key_none.mpr ?_
        intro a ha heq
        have := h.keyed.admin_seq a ha
        simp only [AuthDb.adminTables] at this
        omega
      dsimp only [AuthSystem.Sound, AuthSystem.keptAfter]
      rw [newlyStopped_eq_nil (by simp [hnone]), List.nil_append]
      exact h.addAdmin row
    | update target changes now =>
      obtain ⟨changes', -, hop⟩ := Except.bind_ok_iff.mp hop
      split at hop
      · obtain ⟨row, -, hop⟩ := Except.bind_ok_iff.mp hop
        cases hop
        dsimp only [AuthSystem.Sound, AuthSystem.keptAfter]
        rw [newlyStopped_eq_nil, List.nil_append]
        · exact h
        · intro a b ha hb hactive
          rw [ha] at hb
          cases hb
          exact hactive
      · obtain ⟨rfl, row, hrow, -, -, hdb'⟩ := updateAdminOperation_ok hop
        exact h.updateAdmin hrow hdb'
    | delete target =>
      obtain ⟨rfl, row, -, -, -, hdb'⟩ := deleteAdminOperation_ok hop
      have hgone : db'.admin? id = none := by
        refine find?_key_none.mpr ?_
        intro a ha
        rw [hdb'] at ha
        simpa using (List.mem_filter.mp ha).2
      dsimp only [AuthSystem.Sound, AuthSystem.keptAfter]
      rw [newlyStopped_eq_nil (by simp [hgone]), List.nil_append, hdb']
      exact h.removeAdmin id
    | resetPassword target newPassword salt mustChange now =>
      obtain ⟨⟨⟩, -, hop⟩ := Except.bind_ok_iff.mp hop
      obtain ⟨rfl, row, hrow, -, hdb'⟩ := resetAdminPasswordOperation_ok hop
      dsimp only [AuthSystem.Sound, AuthSystem.keptAfter]
      rw [newlyStopped_eq_nil, List.nil_append, hdb']
      · exact h.setPassword id (.setPassword _ mustChange) (fun _ => rfl) now none
      · intro a b ha hb hactive
        rw [hdb'] at hb
        exact activity_kept (f := .setPassword _ mustChange) (fun _ => rfl) (fun _ => rfl) ha hb
          hactive
    | revokeSessions target exceptSessionId now =>
      obtain ⟨rfl, row, -, -, rfl⟩ := revokeAdminSessionsOperation_ok hop
      dsimp only [AuthSystem.Sound, AuthSystem.keptAfter]
      rw [newlyStopped_eq_nil, List.nil_append]
      · exact h.revoke _ now
      · intro a b ha hb hactive
        have heq : a = b := Option.some.inj (ha.symm.trans hb)
        rwa [← heq]

theorem AuthSystem.Sound.createSession (h : s.Sound) (i : Nat) (proof : Text) (draw : SessionDraw) :
    (s.createSession i adminId proof draw).Sound := by
  unfold AuthSystem.createSession AuthDb.execute
  cases hop : createSessionOperation adminId (some proof) draw s.db with
  | error e => exact h
  | ok result =>
    obtain ⟨⟨⟩, db'⟩ := result
    obtain ⟨⟨a, ha, hid, -, -⟩, hfree, row, hrow, hadmin, rfl⟩ := createSessionOperation_ok hop
    have hfind : s.db.admin? adminId = some a := h.keyed.admin_ids.find?_eq_some ha hid
    simp only [hfind, Option.map_some, AuthSystem.Sound, ← hrow]
    exact h.addSession ha (hadmin.trans hid.symm) (hrow ▸ hfree)

theorem AuthSystem.Sound.changePassword (h : s.Sound) (i : Nat)
    (passwordHash expectedPasswordHash : Text) (currentSessionId : Option Text)
    (updatedAt : Timestamp) :
    (s.changePassword i adminId passwordHash expectedPasswordHash currentSessionId updatedAt).Sound := by
  unfold AuthSystem.changePassword AuthDb.execute
  cases hop : changeAdminPasswordOperation adminId passwordHash expectedPasswordHash currentSessionId
      updatedAt s.db with
  | error e => exact h
  | ok result =>
    obtain ⟨⟨⟩, db'⟩ := result
    have hdb' := changeAdminPasswordOperation_ok hop
    subst hdb'
    exact h.setPassword adminId (.setPassword passwordHash false) (fun _ => rfl) updatedAt
      currentSessionId

theorem AuthSystem.Sound.step (h : s.Sound) {action : AuthAction}
    (hstep : s.step E digest action = some s') : s'.Sound := by
  cases action with
  | loadAndVerify i username password =>
    simp only [AuthSystem.step] at hstep
    split at hstep
    · split at hstep <;> cases hstep <;> exact h
    · cases hstep
  | finalizeAuthentication i =>
    simp only [AuthSystem.step, AuthDb.execute] at hstep
    split at hstep
    · rename_i row _
      cases hop : finalizeAuthentication row s.db with
      | error e =>
        rw [hop] at hstep
        cases hstep
        exact h
      | ok result =>
        rw [hop] at hstep
        cases hstep
        have hdb : result.2 = s.db := finalizeAuthentication_ok hop
        simpa [AuthSystem.Sound, AuthSystem.goto, hdb] using h
    · cases hstep
  | createSession i draw =>
    simp only [AuthSystem.step] at hstep
    split at hstep
    · cases hstep
      exact h.createSession i _ draw
    · cases hstep
  | verifyAndHash i adminId currentPassword newPassword salt currentSessionId =>
    simp only [AuthSystem.step] at hstep
    split at hstep
    · split at hstep <;> cases hstep <;> exact h
    · cases hstep
  | changePassword i updatedAt =>
    simp only [AuthSystem.step] at hstep
    split at hstep
    · cases hstep
      exact h.changePassword i _ _ _ updatedAt
    · cases hstep
  | revokeSession sessionId revokedAt =>
    cases hstep
    exact h.revoke (fun x => x.id = sessionId) revokedAt
  | adminCall principal clock call =>
    cases hstep
    exact h.adminCall principal clock call
  | keyCall principal now call =>
    cases hstep
    unfold AuthDb.execute
    cases hop : call.operation E now principal s.db with
    | error e => exact h
    | ok result =>
      have hsame := (AuthDb.SameAdmins.keyCall hop).adminTables_eq
      simpa [AuthSystem.Sound, hsame] using h

theorem AuthSystem.start_sound (hdb : db.Consistent) : (AuthSystem.start db).Sound := by
  refine ⟨hdb.adminTables, ?_, ?_, ?_⟩
  · intro x hx hlive a ha hax
    have hsession : db.adminSessions.find? (fun y => y.id = x.id) = some x :=
      hdb.session_ids.find?_eq_some hx rfl
    have hadmin : db.admin? x.adminId = some a := hdb.admin_ids.find?_eq_some ha hax
    refine .inl ?_
    simp [AuthSystem.start, hsession, hadmin]
  · exact fun q hq => absurd hq List.not_mem_nil
  · exact fun q hq => absurd hq List.not_mem_nil

end Steps

/-- A digest for the sample run. -/
def sampleDigest : PasswordDigest := fun password salt => password ++ salt

/-- Two administrators without sessions. -/
def AuthDb.sampleAdmins : AuthDb :=
  { AuthDb.empty with
    admins :=
      [⟨1, "root".toList, none, hashPassword sampleDigest "s".toList "first password".toList,
          .superadmin, true, false⟩,
        ⟨2, "eve".toList, none, hashPassword sampleDigest "t".toList "other password".toList,
          .viewer, true, false⟩]
    adminSeq := 2 }

theorem AuthDb.sampleAdmins_consistent : AuthDb.sampleAdmins.Consistent := by
  constructor <;> simp [AuthDb.sampleAdmins, AuthDb.empty, UniqueKey]

/-- Both administrators log in; the first changes its password while a login with the old one is
    under way; the second is deactivated and activated again. -/
def sampleLogins : List AuthAction :=
  [.loadAndVerify 0 "root".toList "first password".toList, .finalizeAuthentication 0,
    .createSession 0 ⟨"s1".toList, "t1".toList, 10⟩,
    .loadAndVerify 1 "eve".toList "other password".toList, .finalizeAuthentication 1,
    .createSession 1 ⟨"s2".toList, "t2".toList, 20⟩,
    .loadAndVerify 2 "root".toList "first password".toList, .finalizeAuthentication 2,
    .verifyAndHash 3 1 "first password".toList "second password".toList "u".toList (some "s1".toList),
    .changePassword 3 30,
    .createSession 2 ⟨"s3".toList, "t3".toList, 40⟩,
    .adminCall none (fun _ => 50) (.update 2 ⟨none, none, none, some false, none⟩ 50),
    .adminCall none (fun _ => 60) (.update 2 ⟨none, none, none, some true, none⟩ 60)]

end RapidInbox

import RapidInbox.Store.AttachmentRows

/-!
# Receipts and the tasks of the file collector

A replay leaves the tasks alone, and adds no message but that of its receipt; nothing at all if a file
of the receipt is queued for deletion (`runtime.py:4017-4028`).
-/

namespace RapidInbox
namespace Db

variable {db db' : Db} {A : AddressOps} {f : RecoveryManifest}

theorem ensureRecoveryMailboxRecord_tasks (hA : A.Lawful) {r : RecoveryRecipient}
    {receivedAt : Timestamp} {id : Nat}
    (h : db.ensureRecoveryMailboxRecord A r receivedAt = .ok (id, db')) :
    db'.fileGcTasks = db.fileGcTasks := by
  unfold ensureRecoveryMailboxRecord at h
  split at h
  · cases h
  · rename_i domainId db₁ hdomain
    split at h
    · cases h
    · rename_i m hm
      obtain ⟨hcase, hid⟩ := ensureRecoveryDomainRecord_ok hdomain
      have hmail : Edits (serviceRules (fun _ => True) fun _ => True) db₁ db' ∧ db₁.MailOnly db' :=
        recoveryMailbox_edits (ownershipMatch_hasDomain hA hid hm) h
      rcases hcase with rfl | ⟨preferred, policy, hins⟩
      · exact hmail.2.fileGcTasks
      · obtain ⟨-, -, rfl⟩ := insertDomain_ok hins
        exact hmail.2.fileGcTasks

theorem recoverRecipient_tasks (hA : A.Lawful) {deliveryId : Text} {r : RecoveryRecipient} {id n : Nat}
    (h : db.recoverRecipient A f deliveryId r = .ok (id, n, db')) :
    db'.fileGcTasks = db.fileGcTasks := by
  unfold recoverRecipient at h
  split at h
  · cases h
  · rename_i mailboxId db₁ hbox
    have hsame := ensureRecoveryMailboxRecord_tasks hA hbox
    split at h
    · cases h
    · split at h
      · cases h
      · rename_i hins
        cases h
        unfold insertDeliveryOrIgnore at hins
        split at hins
        · cases hins
          exact hsame
        · split at hins
          · cases hins
            exact (addDelivery_mailOnly _ _ _ _ _ _ _).fileGcTasks.trans hsame
          · cases hins

theorem recoverRecipients_tasks (hA : A.Lawful) {recipients : List (Text × RecoveryRecipient)}
    {ids : List Nat} {n : Nat} (h : recoverRecipients A f recipients db = .ok (ids, n, db')) :
    db'.fileGcTasks = db.fileGcTasks := by
  induction recipients generalizing db ids n with
  | nil =>
    cases h
    rfl
  | cons x rest ih =>
    obtain ⟨deliveryId, r⟩ := x
    unfold recoverRecipients at h
    split at h
    · cases h
    · rename_i hone
      split at h
      · cases h
      · rename_i hloop
        cases h
        exact (ih hloop).trans (recoverRecipient_tasks hA hone)

/-- What a replay does to the messages and the tasks. -/
structure ReplaysReceipt (db : Db) (f : RecoveryManifest) (db' : Db) : Prop where
  tasks : db'.fileGcTasks = db.fileGcTasks
  messages : db'.messages = db.messages ∨ (db.isRetired f = false ∧
    ∃ session, db'.messages = db.messages ++ [f.messageRow session])

theorem replayManifest_receipt (hA : A.Lawful) {recipients : List (Text × RecoveryRecipient)}
    (hretired : db.isRetired f = false) (h : db.replayManifest A f recipients = .ok db') :
    db.ReplaysReceipt f db' := by
  obtain ⟨inserted, db₁, ids, n, db₂, db₃, db₄, hmsg, hloop, hrefresh, hatt, rfl⟩ := replayManifest_ok h
  obtain ⟨-, hmail, -⟩ := refreshMailboxSummaries_kept hrefresh
  obtain ⟨hmessages₄, -, htasks₄⟩ := insertAttachmentsOrIgnore_kept hatt
  obtain ⟨metrics, hmetric⟩ := recoveryMetric_eq db₄ f inserted n
  rw [hmetric]
  have hmessages : db₄.messages = db₁.messages := by
    rw [hmessages₄, hmail.messages]
    exact (recoverRecipients_sameMessages hA hloop).messages
  have htasks : db₄.fileGcTasks = db₁.fileGcTasks := by
    rw [htasks₄, hmail.fileGcTasks]
    exact recoverRecipients_tasks hA hloop
  obtain ⟨-, rfl⟩ | ⟨-, -, rfl⟩ := insertMessageOrIgnore_ok hmsg
  · exact ⟨htasks, .inl hmessages⟩
  · exact ⟨htasks, .inr ⟨hretired, _, hmessages⟩⟩

/-- A replay of a receipt. -/
theorem write_recover (E : StoreEnv) (db : Db) (f : RecoveryManifest) (deliveryIds : Nat → Text) :
    db.ReplaysReceipt f (db.write E (.store (.recover f deliveryIds))) := by
  have hsame : db.ReplaysReceipt f db := ⟨rfl, .inl rfl⟩
  rcases Db.write_eq_or E db (.store (.recover f deliveryIds)) with h | ⟨db', hok, hdb⟩
  · rw [h]
    exact hsame
  · rw [hdb]
    have happly : db.applyRecoveryManifest (pyAddressOps E.py) f deliveryIds = .ok db' := hok
    unfold applyRecoveryManifest at happly
    split at happly
    · cases happly
      exact hsame
    · rename_i hretired
      split at happly
      · cases happly
      · exact replayManifest_receipt (pyAddressOps_lawful E.py) (by simpa using hretired) happly

end Db
end RapidInbox

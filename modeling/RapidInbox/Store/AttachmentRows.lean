import RapidInbox.Store.MailWrites
import RapidInbox.Store.Replay

/-!
# The writes of attachments

What the commit of a job, the replay of a manifest and the results of a parse do to the messages and
to the rows of `attachments`.
-/

namespace RapidInbox

open Table

namespace Db

/-- The messages and the attachments are the same. -/
structure SameMessages (db db' : Db) : Prop where
  messages : db'.messages = db.messages
  attachments : db'.attachments = db.attachments

/-- A message and its attachments are new. -/
structure AddsMessage (db : Db) (row : MessageRow) (rows : List AttachmentRow) (db' : Db) : Prop where
  absent : ∀ m ∈ db.messages, m.id ≠ row.id
  messages : db'.messages = db.messages ++ [row]
  attachments : db'.attachments = db.attachments ++ rows

/-- The parse columns of a message are written and its attachments replaced. -/
structure ResetsMessage (db : Db) (messageId : Text) (content : MessageContent)
    (rows : List AttachmentRow) (db' : Db) : Prop where
  messages : db'.messages =
    updateWhere (fun m => m.id = messageId) (fun m => { m with content := content }) db.messages
  attachments : db'.attachments = (db.attachments.filter fun a => a.messageId ≠ messageId) ++ rows

variable {db db' db'' : Db}

theorem SameMessages.refl (db : Db) : db.SameMessages db := ⟨rfl, rfl⟩

theorem SameMessages.trans (h : db.SameMessages db') (h' : db'.SameMessages db'') :
    db.SameMessages db'' :=
  ⟨h'.messages.trans h.messages, h'.attachments.trans h.attachments⟩

theorem MailOnly.sameMessages (h : db.MailOnly db') : db.SameMessages db' :=
  ⟨h.messages, h.attachments⟩

theorem AddsMessage.then_same {row : MessageRow} {rows : List AttachmentRow}
    (h : db.AddsMessage row rows db') (h' : db'.SameMessages db'') : db.AddsMessage row rows db'' :=
  ⟨h.absent, h'.messages.trans h.messages, h'.attachments.trans h.attachments⟩

theorem upsertMetric_sameMessages (db : Db) (bucketTs received deliveries parseFailures : Nat) :
    db.SameMessages (db.upsertMetric bucketTs received deliveries parseFailures) := by
  obtain ⟨metrics, hmetrics⟩ :=
    BatchWriter.upsertMetric_eq db bucketTs received deliveries parseFailures
  rw [hmetrics]
  exact ⟨rfl, rfl⟩

/-! ## Plain inserts -/

theorem foldlM_insertAttachment {rows : List AttachmentRow}
    (h : rows.foldlM insertAttachment db = .ok db') :
    db' = { db with attachments := db.attachments ++ rows } := by
  induction rows generalizing db with
  | nil =>
    cases h
    simp
  | cons row rows ih =>
    rw [List.foldlM_cons, Except.bind_ok_iff] at h
    obtain ⟨db₁, hone, hrest⟩ := h
    obtain ⟨-, -, rfl⟩ := insertAttachment_ok hone
    simpa using ih hrest

theorem applyParsedMessage_resets {messageId : Text} {content : MessageContent}
    {rows : List AttachmentRow} (h : db.applyParsedMessage messageId content rows = .ok db') :
    db.ResetsMessage messageId content rows db' := by
  rw [foldlM_insertAttachment h]
  exact ⟨rfl, rfl⟩

theorem markMessageParseFailed_resets (db : Db) (messageId : Text) (error : Bytes)
    (indexedAt : Timestamp) :
    db.ResetsMessage messageId (failedContent error indexedAt) []
      (db.markMessageParseFailed messageId error indexedAt) := by
  have hfailed : db.ResetsMessage messageId (failedContent error indexedAt) []
      ((db.dropAttachments messageId).setContent messageId fun _ =>
        failedContent error indexedAt) :=
    ⟨rfl, (List.append_nil _).symm⟩
  unfold markMessageParseFailed
  dsimp only
  split
  · exact hfailed
  · rename_i m _
    split
    · exact hfailed
    · have hmetric := upsertMetric_sameMessages ((db.dropAttachments messageId).setContent messageId
        fun _ => failedContent error indexedAt) (metricBucketTs m.receivedAt) 0 0 1
      exact ⟨hmetric.messages.trans hfailed.messages, hmetric.attachments.trans hfailed.attachments⟩

/-! ## A commit -/

theorem foldlM_insertAttachment_map {α : Type} {f : α → AttachmentRow} {xs : List α}
    (h : xs.foldlM (fun db x => db.insertAttachment (f x)) db = .ok db') :
    db' = { db with attachments := db.attachments ++ xs.map f } := by
  apply foldlM_insertAttachment
  rw [List.foldlM_map]
  exact h

/-- A job is skipped, or its message and its attachments are added. -/
theorem storeJob_rows {A : AddressOps} (hdb : db.Consistent) {job : MailJob} {result : ParseResult}
    (h : BatchWriter.storeJob A db job result = .ok db') :
    db' = db ∨ db.AddsMessage (BatchWriter.messageRow job result)
      ((BatchWriter.attachmentsOf result).map (BatchWriter.attachmentRow job)) db' := by
  obtain ⟨-, hskip⟩ | ⟨hnew, db₁, staged, stored, n, hmsg, hatt, hloop, rfl⟩ :=
    BatchWriter.storeJob_ok h
  · exact .inl hskip
  · have hedits : Edits (idRules (fun _ => True) fun _ => True) db staged :=
      ((Edits.single (BatchWriter.upsertSession_edit job)).tail (.addMessage hmsg trivial)).trans
        (BatchWriter.insertAttachments_edits hatt).1
    have hmail := BatchWriter.storeRecipients_mailOnly (Edits.consistent hdb hedits) hloop
    obtain ⟨sessions, hsession⟩ := BatchWriter.upsertSession_eq db job
    rw [hsession] at hmsg
    obtain ⟨-, rfl⟩ := insertMessage_ok hmsg
    have hstaged := foldlM_insertAttachment_map hatt
    subst hstaged
    have hadds : db.AddsMessage (BatchWriter.messageRow job result)
        ((BatchWriter.attachmentsOf result).map (BatchWriter.attachmentRow job)) stored :=
      ⟨hnew, hmail.messages, hmail.attachments⟩
    exact .inr (hadds.then_same (upsertMetric_sameMessages _ _ _ _ _))

/-! ## A replay -/

theorem ensureRecoveryMailboxRecord_sameMessages {A : AddressOps} (hA : A.Lawful)
    {r : RecoveryRecipient} {receivedAt : Timestamp} {id : Nat}
    (h : db.ensureRecoveryMailboxRecord A r receivedAt = .ok (id, db')) : db.SameMessages db' := by
  unfold ensureRecoveryMailboxRecord at h
  split at h
  · cases h
  · rename_i domainId db₁ hdomain
    split at h
    · cases h
    · rename_i m hm
      obtain ⟨hcase, hid⟩ := ensureRecoveryDomainRecord_ok hdomain
      have hmail : Edits (serviceRules (fun _ => True) fun _ => True) db₁ db' ∧ db₁.MailOnly db' :=
        recoveryMailbox_edits (ownershipMatch_hasDomain hA hid hm) h
      rcases hcase with rfl | ⟨preferred, policy, hins⟩
      · exact hmail.2.sameMessages
      · obtain ⟨-, -, rfl⟩ := insertDomain_ok hins
        exact ⟨hmail.2.messages, hmail.2.attachments⟩

theorem recoverRecipient_sameMessages {A : AddressOps} (hA : A.Lawful) {f : RecoveryManifest}
    {deliveryId : Text} {r : RecoveryRecipient} {id n : Nat}
    (h : db.recoverRecipient A f deliveryId r = .ok (id, n, db')) : db.SameMessages db' := by
  unfold recoverRecipient at h
  split at h
  · cases h
  · rename_i mailboxId db₁ hbox
    have hsame := ensureRecoveryMailboxRecord_sameMessages hA hbox
    split at h
    · cases h
    · split at h
      · cases h
      · rename_i hins
        cases h
        unfold insertDeliveryOrIgnore at hins
        split at hins
        · cases hins
          exact hsame
        · split at hins
          · cases hins
            exact hsame.trans (addDelivery_mailOnly _ _ _ _ _ _ _).sameMessages
          · cases hins

theorem recoverRecipients_sameMessages {A : AddressOps} (hA : A.Lawful) {f : RecoveryManifest}
    {recipients : List (Text × RecoveryRecipient)} {ids : List Nat} {n : Nat}
    (h : recoverRecipients A f recipients db = .ok (ids, n, db')) : db.SameMessages db' := by
  induction recipients generalizing db ids n with
  | nil =>
    cases h
    exact .refl _
  | cons x rest ih =>
    obtain ⟨deliveryId, r⟩ := x
    unfold recoverRecipients at h
    split at h
    · cases h
    · rename_i hone
      split at h
      · cases h
      · rename_i hloop
        cases h
        exact (recoverRecipient_sameMessages hA hone).trans (ih hloop)

/-- Every attachment is refused. -/
theorem insertAttachmentsOrIgnore_refused {f : RecoveryManifest} {attachments : List RecoveryAttachment}
    (hrefused : ∀ a ∈ attachments, db.attachmentConflict (f.attachmentRow a) = true)
    (h : attachments.foldlM (fun db a => db.insertAttachmentOrIgnore (f.attachmentRow a)) db =
      .ok db') : db' = db := by
  induction attachments generalizing db' with
  | nil =>
    cases h
    rfl
  | cons a rest ih =>
    obtain ⟨ha, hrest⟩ := List.forall_mem_cons.mp hrefused
    rw [List.foldlM_cons, insertAttachmentOrIgnore, if_pos ha] at h
    exact ih hrest h

/-- No attachment is refused. -/
theorem insertAttachmentsOrIgnore_new {f : RecoveryManifest} {attachments : List RecoveryAttachment}
    (hfresh : ∀ a ∈ attachments, ∀ row ∈ db.attachments, row.id ≠ a.id ∧ (row.messageId = f.messageId →
      row.partIndex ≠ a.partIndex))
    (hids : (attachments.map RecoveryAttachment.id).Nodup)
    (hparts : (attachments.map RecoveryAttachment.partIndex).Nodup)
    (h : attachments.foldlM (fun db a => db.insertAttachmentOrIgnore (f.attachmentRow a)) db =
      .ok db') :
    db' = { db with attachments := db.attachments ++ attachments.map f.attachmentRow } := by
  induction attachments generalizing db with
  | nil =>
    cases h
    simp
  | cons a rest ih =>
    rw [List.map_cons, List.nodup_cons] at hids hparts
    obtain ⟨ha, hrest⟩ := List.forall_mem_cons.mp hfresh
    have hconflict : db.attachmentConflict (f.attachmentRow a) = false := by
      unfold attachmentConflict
      rw [List.any_eq_false]
      intro row hrow hcond
      rw [Bool.or_eq_true, Bool.and_eq_true] at hcond
      rcases hcond with hid | ⟨hmessage, hpart⟩
      · exact (ha row hrow).1 (of_decide_eq_true hid)
      · exact (ha row hrow).2 (of_decide_eq_true hmessage) (of_decide_eq_true hpart)
    rw [List.foldlM_cons, insertAttachmentOrIgnore, hconflict, Except.bind_ok_iff] at h
    obtain ⟨db₁, hone, hloop⟩ := h
    obtain ⟨-, -, rfl⟩ := insertAttachment_ok hone
    refine (ih ?_ hids.2 hparts.2 hloop).trans ?_
    · intro b hb row hrow
      rcases List.mem_append.mp hrow with hrow | hrow
      · exact hrest b hb row hrow
      · rw [List.mem_singleton.mp hrow]
        refine ⟨fun heq => hids.1 ?_, fun _ heq => hparts.1 ?_⟩
        · exact List.mem_map.mpr ⟨b, hb, heq.symm⟩
        · exact List.mem_map.mpr ⟨b, hb, heq.symm⟩
    · simp

/-- An attachment of a message that is not there is not inserted. -/
theorem insertAttachmentsOrIgnore_orphan {f : RecoveryManifest} {attachments : List RecoveryAttachment}
    (hmessages : ∀ m ∈ db.messages, m.id ≠ f.messageId)
    (h : attachments.foldlM (fun db a => db.insertAttachmentOrIgnore (f.attachmentRow a)) db =
      .ok db') : db' = db := by
  induction attachments generalizing db' with
  | nil =>
    cases h
    rfl
  | cons a rest ih =>
    rw [List.foldlM_cons, Except.bind_ok_iff] at h
    obtain ⟨db₁, hone, hloop⟩ := h
    unfold insertAttachmentOrIgnore at hone
    split at hone
    · cases hone
      exact ih hloop
    · obtain ⟨-, ⟨m, hm, hid⟩, -⟩ := insertAttachment_ok hone
      exact absurd hid (hmessages m hm)

theorem insertMessageOrIgnore_rows {row : MessageRow} {inserted : Bool}
    (h : db.insertMessageOrIgnore row = .ok (inserted, db')) :
    db' = db ∨ db.AddsMessage row [] db' := by
  unfold insertMessageOrIgnore at h
  split at h
  · cases h
    exact .inl rfl
  · split at h
    · cases h
    · rename_i hins
      cases h
      obtain ⟨habsent, rfl⟩ := insertMessage_ok hins
      exact .inr ⟨habsent, rfl, (List.append_nil _).symm⟩

theorem recoveryMetric_sameMessages (db : Db) (f : RecoveryManifest) (inserted : Bool) (n : Nat) :
    db.SameMessages (db.recoveryMetric f inserted n) := by
  unfold recoveryMetric
  split
  · exact upsertMetric_sameMessages _ _ _ _ _
  · exact .refl db

/-- A replay that finds the message changes neither table if every attachment is refused; one that
    does not find it adds it, if its attachments are new. -/
theorem applyRecoveryManifest_rows {A : AddressOps} (hA : A.Lawful) {f : RecoveryManifest}
    {deliveryIds : Nat → Text} (h : db.applyRecoveryManifest A f deliveryIds = .ok db')
    (hfresh : (∀ m ∈ db.messages, m.id ≠ f.messageId) → ∀ a ∈ f.attachments, ∀ row ∈ db.attachments,
      row.id ≠ a.id ∧ row.messageId ≠ f.messageId)
    (hids : (f.attachments.map RecoveryAttachment.id).Nodup)
    (hparts : (f.attachments.map RecoveryAttachment.partIndex).Nodup)
    (hrefused : (∀ m ∈ db.messages, m.id ≠ f.messageId) ∨
      ∀ a ∈ f.attachments, db.attachmentConflict (f.attachmentRow a) = true) :
    db.SameMessages db' ∨ ∃ session,
      db.AddsMessage (f.messageRow session) (f.attachments.map f.attachmentRow) db' := by
  unfold applyRecoveryManifest at h
  split at h
  · cases h
    exact .inl (.refl db)
  · split at h
    · cases h
    · obtain ⟨inserted, db₁, ids, n, db₂, db₃, db₄, hmsg, hloop, hrefresh, hatt, rfl⟩ :=
        replayManifest_ok h
      have hsame₃ : db₁.SameMessages db₃ := (recoverRecipients_sameMessages hA hloop).trans
        (refreshMailboxSummaries_kept hrefresh).2.1.sameMessages
      have htail := recoveryMetric_sameMessages db₄ f inserted n
      rcases insertMessageOrIgnore_rows hmsg with rfl | hadds
      · have hkept : db₄ = db₃ := by
          rcases hrefused with habsent | hrefused
          · apply insertAttachmentsOrIgnore_orphan ?_ hatt
            rw [hsame₃.messages]
            exact habsent
          · apply insertAttachmentsOrIgnore_refused ?_ hatt
            intro a ha
            rw [attachmentConflict, hsame₃.attachments]
            exact hrefused a ha
        subst hkept
        exact .inl (hsame₃.trans htail)
      · have hattachments : db₃.attachments = db.attachments := by
          rw [hsame₃.attachments, hadds.attachments, List.append_nil]
        have hnew := insertAttachmentsOrIgnore_new (fun a ha row hrow => by
          rw [hattachments] at hrow
          have hrow' := hfresh hadds.absent a ha row hrow
          exact ⟨hrow'.1, fun heq => absurd heq hrow'.2⟩) hids hparts hatt
        subst hnew
        refine .inr ⟨_, AddsMessage.then_same ⟨hadds.absent, ?_, ?_⟩ htail⟩
        · exact hsame₃.messages.trans hadds.messages
        · show db₃.attachments ++ _ = _
          rw [hattachments]

end Db
end RapidInbox

import RapidInbox.Lib.Result
import RapidInbox.Store.BulkDelete

/-!
# The other writes of mail

The writes that are no operation of the store: the results of the parse queue
(`runtime.py:3863-3984`), a request to parse again (`messages.py:95-146`), the tables of clear-all
(`runtime.py:2066-2144`), the outcomes of the file collector (`runtime.py:1749-1785`) and the domain
snapshots of a recovery (`runtime.py:2813-2814`).
-/

namespace RapidInbox

open Table

namespace Db

/-- `UPDATE messages … WHERE id = ?`, in the columns a parse writes. -/
def setContent (db : Db) (messageId : Text) (f : MessageContent → MessageContent) : Db :=
  { db with
    messages := updateWhere (fun m => m.id = messageId) (fun m => { m with content := f m.content })
      db.messages }

/-- `DELETE FROM attachments WHERE message_id = ?`. -/
def dropAttachments (db : Db) (messageId : Text) : Db :=
  { db with attachments := db.attachments.filter fun a => a.messageId ≠ messageId }

/-- `_apply_parsed_message`: the columns of the message, and its attachments anew. -/
def applyParsedMessage (db : Db) (messageId : Text) (content : MessageContent)
    (attachments : List AttachmentRow) : Except DbError Db :=
  attachments.foldlM insertAttachment
    ((db.setContent messageId fun _ => content).dropAttachments messageId)

/-- The columns `_mark_message_parse_failed` leaves. -/
def failedContent (error : Bytes) (indexedAt : Timestamp) : MessageContent :=
  { parseStatus := .failed
    parseError := some error
    indexedAt := some indexedAt
    messageIdHeader := none
    subject := none
    fromName := none
    fromAddr := none
    replyTo := none
    dateHeader := none
    hasText := false
    hasHtml := false
    hasAttachments := false
    attachmentCount := 0
    textPreview := none
    textBodyPath := none
    htmlBodyPath := none
    headers := none
    verificationCode := none }

/-- `_mark_message_parse_failed`; the metric counts a message that had not failed before. -/
def markMessageParseFailed (db : Db) (messageId : Text) (error : Bytes) (indexedAt : Timestamp) :
    Db :=
  let failed := (db.dropAttachments messageId).setContent messageId fun _ =>
    failedContent error indexedAt
  match db.messages.find? fun m => m.id = messageId with
  | none => failed
  | some m =>
    if m.content.parseStatus = .failed then failed
    else failed.upsertMetric (metricBucketTs m.receivedAt) 0 0 1

/-- `MessageService.reparse`: the row is pending again. -/
def requeueParse (db : Db) (messageId : Text) : Db :=
  db.setContent messageId fun content => { content with parseStatus := .pending, parseError := none }

/-- `_clear_mail_tables`. -/
def clearMailTables (db : Db) : Db :=
  { db with
    attachments := []
    bulkDeleteJobs := []
    deliveries := []
    messages := []
    mailboxes := []
    sessions := []
    metrics := []
    fileGcTasks := []
    mailboxSeq := 0 }

/-- `apply_outcomes` of `_drain_file_gc`: the tasks of the paths that are gone. -/
def applyGcOutcomes (db : Db) (deleted : List Text) : Db :=
  { db with fileGcTasks := db.fileGcTasks.filter fun path => decide (path ∉ deleted) }

end Db

/-- A write to the mail tables. -/
inductive MailWrite where
  | store (op : StoreOp)
  | applyParsed (messageId : Text) (content : MessageContent) (attachments : List AttachmentRow)
  | parseFailed (messageId : Text) (error : Bytes) (indexedAt : Timestamp)
  | requeueParse (messageId : Text)
  | clear
  | applyGcOutcomes (deleted : List Text)
  | recoverSnapshot (snapshot : DomainSnapshot)

namespace MailWrite

/-- The transaction of a write. -/
def transaction (E : StoreEnv) (db : Db) : MailWrite → Except DbError Db
  | .store op => op.transaction E db
  | .applyParsed messageId content attachments => db.applyParsedMessage messageId content attachments
  | .parseFailed messageId error indexedAt => .ok (db.markMessageParseFailed messageId error indexedAt)
  | .requeueParse messageId => .ok (db.requeueParse messageId)
  | .clear => .ok db.clearMailTables
  | .applyGcOutcomes deleted => .ok (db.applyGcOutcomes deleted)
  | .recoverSnapshot snapshot => db.recoverDomainSnapshot snapshot

/-- A write may insert a message, or a delivery of a message, under the given id. -/
def InsertsMail : MailWrite → MailInsert → Prop
  | .store op, row => op.InsertsMail row
  | _, _ => False

end MailWrite

namespace Db

/-- One write, with the rollback of a failed transaction. -/
def write (E : StoreEnv) (db : Db) (w : MailWrite) : Db :=
  match w.transaction E db with
  | .ok db' => db'
  | .error _ => db

/-- Writes one after the other. -/
def writes (E : StoreEnv) (db : Db) (ws : List MailWrite) : Db := ws.foldl (write E) db

end Db

/-! ## The schema holds after every write -/

namespace Db

variable {db db' : Db} {messageId : Text}

theorem setContent_consistent (hdb : db.Consistent) (f : MessageContent → MessageContent) :
    (db.setContent messageId f).Consistent := by
  have hkept {id : Text} (h : ∃ m ∈ db.messages, m.id = id) :
      ∃ m ∈ (db.setContent messageId f).messages, m.id = id := by
    obtain ⟨m, hm, rfl⟩ := h
    refine ⟨_, mem_updateWhere.mpr ⟨m, hm, rfl⟩, ?_⟩
    split <;> rfl
  exact { hdb with
    message_ids := hdb.message_ids.updateWhere fun _ => rfl
    delivery_messages := fun d hd => hkept (hdb.delivery_messages d hd)
    attachment_messages := fun a ha => hkept (hdb.attachment_messages a ha) }

theorem dropAttachments_consistent (hdb : db.Consistent) :
    (db.dropAttachments messageId).Consistent :=
  { hdb with
    attachment_keys := hdb.attachment_keys.filter _
    attachment_messages := fun a ha => hdb.attachment_messages a (List.mem_of_mem_filter ha) }

/-- The deliveries, and the ids of the messages, are the same. -/
structure KeepsMail (db db' : Db) : Prop where
  deliveries : db'.deliveries = db.deliveries
  messageIds : db'.messages.map MessageRow.id = db.messages.map MessageRow.id

theorem setContent_keepsMail (db : Db) (messageId : Text) (f : MessageContent → MessageContent) :
    db.KeepsMail (db.setContent messageId f) where
  deliveries := rfl
  messageIds := map_updateWhere (f := fun m : MessageRow => { m with content := f m.content })
    (fun _ => rfl) db.messages

theorem applyParsedMessage_spec (hdb : db.Consistent) {content : MessageContent}
    {attachments : List AttachmentRow}
    (h : db.applyParsedMessage messageId content attachments = .ok db') :
    db'.Consistent ∧ db.KeepsMail db' := by
  have hstep (s : Db) (hs : s.Consistent ∧ db.KeepsMail s) (row : AttachmentRow)
      (_ : row ∈ attachments) (s' : Db) (hins : s.insertAttachment row = .ok s') :
      s'.Consistent ∧ db.KeepsMail s' := by
    have hedit : Edit (idRules (fun _ => False) fun _ => False) s s' := .addAttachment hins
    obtain ⟨-, -, rfl⟩ := insertAttachment_ok hins
    exact ⟨hedit.consistent hs.1, hs.2.1, hs.2.2⟩
  have hstart : db.KeepsMail ((db.setContent messageId fun _ => content).dropAttachments messageId) :=
    ⟨rfl, (setContent_keepsMail db messageId fun _ => content).messageIds⟩
  exact Transition.foldlM_invariant hstep
    ⟨dropAttachments_consistent (setContent_consistent hdb _), hstart⟩ h

theorem markMessageParseFailed_spec (hdb : db.Consistent) (error : Bytes) (indexedAt : Timestamp) :
    (db.markMessageParseFailed messageId error indexedAt).Consistent ∧
      db.KeepsMail (db.markMessageParseFailed messageId error indexedAt) := by
  have hfailed : ((db.dropAttachments messageId).setContent messageId fun _ =>
      failedContent error indexedAt).Consistent :=
    setContent_consistent (dropAttachments_consistent hdb) _
  have hkept : db.KeepsMail ((db.dropAttachments messageId).setContent messageId fun _ =>
      failedContent error indexedAt) :=
    ⟨rfl, (setContent_keepsMail (db.dropAttachments messageId) _ _).messageIds⟩
  unfold markMessageParseFailed
  dsimp only
  split
  · exact ⟨hfailed, hkept⟩
  · split
    · exact ⟨hfailed, hkept⟩
    · obtain ⟨metrics, hmetrics⟩ := BatchWriter.upsertMetric_eq
        ((db.dropAttachments messageId).setContent messageId fun _ => failedContent error indexedAt)
        (metricBucketTs _) 0 0 1
      rw [hmetrics]
      exact ⟨{ hfailed with }, hkept.1, hkept.2⟩

theorem clearMailTables_consistent (hdb : db.Consistent) : db.clearMailTables.Consistent where
  domain_ids := hdb.domain_ids
  domain_roots := hdb.domain_roots
  mailbox_ids := List.nodup_nil
  mailbox_seq := nofun
  mailbox_addresses := List.nodup_nil
  mailbox_domains := nofun
  delivery_ids := List.nodup_nil
  delivery_rowids := .nil
  delivery_rowids_pos := nofun
  delivery_keys := List.nodup_nil
  delivery_mailboxes := nofun
  delivery_messages := nofun
  message_ids := List.nodup_nil
  attachment_keys := List.nodup_nil
  attachment_messages := nofun
  job_ids := List.nodup_nil
  job_mailboxes := nofun
  job_incomplete := nofun

/-- A snapshot adds its domain, or the domain is there. -/
theorem recoverDomainSnapshot_ok {snapshot : DomainSnapshot}
    (h : db.recoverDomainSnapshot snapshot = .ok db') :
    db' = db ∨ ∃ preferred policy id,
      db.insertDomain preferred snapshot.rootDomainAscii policy = .ok (id, db') := by
  obtain ⟨⟨id, db₁⟩, hrecord, rfl⟩ := Except.map_ok_iff.mp h
  rcases (ensureRecoveryDomainRecord_ok hrecord).1 with hsame | ⟨preferred, policy, hins⟩
  · exact .inl hsame
  · exact .inr ⟨preferred, policy, id, hins⟩

theorem recoverDomainSnapshot_spec (hdb : db.Consistent) {snapshot : DomainSnapshot}
    (h : db.recoverDomainSnapshot snapshot = .ok db') :
    db'.Consistent ∧ db.KeepsMail db' := by
  rcases recoverDomainSnapshot_ok h with rfl | ⟨preferred, policy, id, hins⟩
  · exact ⟨hdb, rfl, rfl⟩
  · have hedit : Edit ⟨fun _ _ _ => False, fun _ _ => True, fun _ => False, fun _ => False⟩ db db' :=
      insertDomain_edit hdb (fun _ _ => trivial) hins
    obtain ⟨-, -, rfl⟩ := insertDomain_ok hins
    exact ⟨Edits.consistent hdb (.single hedit), rfl, rfl⟩

theorem write_eq_or (E : StoreEnv) (db : Db) (w : MailWrite) :
    db.write E w = db ∨ ∃ db', w.transaction E db = .ok db' ∧ db.write E w = db' := by
  unfold write
  cases hok : w.transaction E db with
  | error e => exact .inl rfl
  | ok db' => exact .inr ⟨db', rfl, rfl⟩

theorem write_consistent {E : StoreEnv} (hdb : db.Consistent) (w : MailWrite) :
    (db.write E w).Consistent := by
  unfold write
  split
  · rename_i db' hok
    cases w with
    | store op => exact Edits.consistent hdb (StoreOp.transaction_edits hdb hok)
    | applyParsed id content attachments => exact (applyParsedMessage_spec hdb hok).1
    | parseFailed id error indexedAt =>
      cases hok
      exact (markMessageParseFailed_spec hdb error indexedAt).1
    | requeueParse id =>
      cases hok
      exact setContent_consistent hdb _
    | clear =>
      cases hok
      exact clearMailTables_consistent hdb
    | applyGcOutcomes deleted =>
      cases hok
      exact { hdb with }
    | recoverSnapshot snapshot => exact (recoverDomainSnapshot_spec hdb hok).1
  · exact hdb

theorem writes_consistent {E : StoreEnv} (hdb : db.Consistent) (ws : List MailWrite) :
    (db.writes E ws).Consistent := by
  induction ws generalizing db with
  | nil => exact hdb
  | cons w ws ih => exact ih (write_consistent hdb w)

end Db

/-! ## Where deliveries come from -/

/-- Where a delivery comes from: it was there, or it is new. -/
theorem Edit.delivery_origin {rules : EditRules} {db db' : Db} (hedit : Edit rules db db') {d' : DeliveryRow}
    (hd' : d' ∈ db'.deliveries) :
    (∃ d ∈ db.deliveries, d'.id = d.id ∧ d'.messageId = d.messageId) ∨
      rules.newMail (.delivery d'.id d'.messageId) := by
  cases hedit with
  | addMailbox hins =>
    obtain ⟨-, -, -, rfl⟩ := Db.insertMailbox_ok hins
    exact .inl ⟨d', hd', rfl, rfl⟩
  | setIdentity _ _ hupd =>
    obtain ⟨-, -, rfl⟩ := Db.updateMailboxIdentity_ok hupd
    exact .inl ⟨d', hd', rfl, rfl⟩
  | mergeDeliveries _ _ =>
    obtain ⟨d, hd, hrow⟩ := List.mem_filterMap.mp hd'
    exact .inl ⟨d, hd, (Db.mergeRow_identity hrow).2⟩
  | addDelivery hnew _ _ =>
    rcases List.mem_append.mp hd' with hd | hd
    · exact .inl ⟨d', hd, rfl, rfl⟩
    · rw [List.mem_singleton.mp hd]
      exact .inr hnew
  | softDelete =>
    obtain ⟨d, hd, rfl⟩ := mem_updateWhere.mp hd'
    refine .inl ⟨d, hd, ?_⟩
    split <;> exact ⟨rfl, rfl⟩
  | dropDeliveries => exact .inl ⟨d', List.mem_of_mem_filter hd', rfl, rfl⟩
  | dropMessages => exact .inl ⟨d', List.mem_of_mem_filter hd', rfl, rfl⟩
  | createJob _ hjob =>
    obtain ⟨mailbox, -, -, ⟨-, -, -, -, -, rfl⟩ | ⟨-, -, -, rfl⟩⟩ :=
      Db.createOrResumeBulkDeleteJob_ok hjob
    · exact .inl ⟨d', hd', rfl, rfl⟩
    · exact .inl ⟨d', hd', rfl, rfl⟩
  | processJob hjob =>
    obtain ⟨job, -, -, -, ⟨-, rfl⟩ | ⟨-, rfl⟩⟩ := Db.processBulkDeleteJobBatch_ok hjob
    · exact .inl ⟨d', hd', rfl, rfl⟩
    · rw [Db.advanceBulkDeleteJob_deliveries] at hd'
      obtain ⟨d, hd, rfl⟩ := mem_updateWhere.mp hd'
      refine .inl ⟨d, hd, ?_⟩
      split <;> exact ⟨rfl, rfl⟩
  | addMessage hmsg _ =>
    obtain ⟨-, rfl⟩ := Db.insertMessage_ok hmsg
    exact .inl ⟨d', hd', rfl, rfl⟩
  | addAttachment hatt =>
    obtain ⟨-, -, rfl⟩ := Db.insertAttachment_ok hatt
    exact .inl ⟨d', hd', rfl, rfl⟩
  | _ => exact .inl ⟨d', hd', rfl, rfl⟩

theorem Edits.delivery_origin {rules : EditRules} {db db' : Db} (hedits : Edits rules db db')
    {d' : DeliveryRow} (hd' : d' ∈ db'.deliveries) :
    (∃ d ∈ db.deliveries, d'.id = d.id ∧ d'.messageId = d.messageId) ∨
      rules.newMail (.delivery d'.id d'.messageId) := by
  induction hedits generalizing d' with
  | refl => exact .inl ⟨d', hd', rfl, rfl⟩
  | tail _ hedit ih =>
    rcases hedit.delivery_origin hd' with ⟨d, hd, hid, hmsg⟩ | hnew
    · rw [hid, hmsg]
      exact ih hd
    · exact .inr hnew

/-- After a write a delivery was there, or the write has inserted it. -/
theorem Db.write_origin {E : StoreEnv} {db : Db} (hdb : db.Consistent) (w : MailWrite)
    {d' : DeliveryRow} (hd' : d' ∈ (db.write E w).deliveries) :
    (∃ d ∈ db.deliveries, d'.id = d.id ∧ d'.messageId = d.messageId) ∨
      w.InsertsMail (.delivery d'.id d'.messageId) := by
  have hsame (hd : d' ∈ db.deliveries) :
      (∃ d ∈ db.deliveries, d'.id = d.id ∧ d'.messageId = d.messageId) ∨
        w.InsertsMail (.delivery d'.id d'.messageId) := .inl ⟨d', hd, rfl, rfl⟩
  unfold Db.write at hd'
  split at hd'
  · rename_i db' hok
    cases w with
    | store op => exact Edits.delivery_origin (StoreOp.transaction_edits hdb hok) hd'
    | applyParsed id content attachments =>
      exact hsame ((Db.applyParsedMessage_spec hdb hok).2.deliveries ▸ hd')
    | parseFailed id error indexedAt =>
      cases hok
      exact hsame ((Db.markMessageParseFailed_spec hdb error indexedAt).2.deliveries ▸ hd')
    | clear =>
      cases hok
      exact absurd hd' List.not_mem_nil
    | recoverSnapshot snapshot => exact hsame ((Db.recoverDomainSnapshot_spec hdb hok).2.deliveries ▸ hd')
    | _ =>
      cases hok
      exact hsame hd'
  · exact hsame hd'

/-! ## Where messages come from -/

theorem Edit.message_origin {rules : EditRules} {db db' : Db} (hedit : Edit rules db db')
    {m' : MessageRow} (hm' : m' ∈ db'.messages) :
    (∃ m ∈ db.messages, m.id = m'.id) ∨ rules.newMail (.message m'.id) := by
  cases hedit with
  | addMailbox hins =>
    obtain ⟨-, -, -, rfl⟩ := Db.insertMailbox_ok hins
    exact .inl ⟨m', hm', rfl⟩
  | setIdentity _ _ hupd =>
    obtain ⟨-, -, rfl⟩ := Db.updateMailboxIdentity_ok hupd
    exact .inl ⟨m', hm', rfl⟩
  | dropMessages => exact .inl ⟨m', List.mem_of_mem_filter hm', rfl⟩
  | createJob _ hjob =>
    obtain ⟨mailbox, -, -, ⟨-, -, -, -, -, rfl⟩ | ⟨-, -, -, rfl⟩⟩ :=
      Db.createOrResumeBulkDeleteJob_ok hjob
    · exact .inl ⟨m', hm', rfl⟩
    · exact .inl ⟨m', hm', rfl⟩
  | processJob hjob =>
    obtain ⟨job, -, -, -, ⟨-, rfl⟩ | ⟨-, rfl⟩⟩ := Db.processBulkDeleteJobBatch_ok hjob
    · exact .inl ⟨m', hm', rfl⟩
    · unfold Db.advanceBulkDeleteJob at hm'
      dsimp only at hm'
      split at hm'
      · exact .inl ⟨m', hm', rfl⟩
      · exact .inl ⟨m', hm', rfl⟩
  | addMessage hmsg hnew =>
    obtain ⟨-, rfl⟩ := Db.insertMessage_ok hmsg
    rcases List.mem_append.mp hm' with hm | hm
    · exact .inl ⟨m', hm, rfl⟩
    · rw [List.mem_singleton.mp hm]
      exact .inr hnew
  | addAttachment hatt =>
    obtain ⟨-, -, rfl⟩ := Db.insertAttachment_ok hatt
    exact .inl ⟨m', hm', rfl⟩
  | _ => exact .inl ⟨m', hm', rfl⟩

theorem Edits.message_origin {rules : EditRules} {db db' : Db} (hedits : Edits rules db db')
    {m' : MessageRow} (hm' : m' ∈ db'.messages) :
    (∃ m ∈ db.messages, m.id = m'.id) ∨ rules.newMail (.message m'.id) := by
  induction hedits generalizing m' with
  | refl => exact .inl ⟨m', hm', rfl⟩
  | tail _ hedit ih =>
    rcases hedit.message_origin hm' with ⟨m, hm, hid⟩ | hnew
    · rw [← hid]
      exact ih hm
    · exact .inr hnew

/-- There is no message with a given id. -/
def Db.LacksMessage (db : Db) (id : Text) : Prop := ∀ m ∈ db.messages, m.id ≠ id

theorem Db.KeepsMail.lacksMessage {db db' : Db} {id : Text} (hkept : db.KeepsMail db')
    (h : db.LacksMessage id) : db'.LacksMessage id := by
  intro m hm hid
  have hmem : id ∈ db'.messages.map MessageRow.id := List.mem_map.mpr ⟨m, hm, hid⟩
  rw [hkept.messageIds] at hmem
  obtain ⟨m₀, hm₀, hid₀⟩ := List.mem_map.mp hmem
  exact h m₀ hm₀ hid₀

/-- A message that is not there does not appear, unless the write brings it. -/
theorem Db.LacksMessage.write {E : StoreEnv} {db : Db} {id : Text} (h : db.LacksMessage id)
    (hdb : db.Consistent) {w : MailWrite} (hw : ¬w.InsertsMail (.message id)) :
    (db.write E w).LacksMessage id := by
  unfold Db.write
  split
  · rename_i db' hok
    cases w with
    | store op =>
      rintro m hm rfl
      rcases Edits.message_origin (StoreOp.transaction_edits hdb hok) hm with ⟨m', hm', hid⟩ | hnew
      · exact h m' hm' hid
      · exact hw hnew
    | applyParsed id content attachments =>
      exact (Db.applyParsedMessage_spec hdb hok).2.lacksMessage h
    | parseFailed id error indexedAt =>
      cases hok
      exact (Db.markMessageParseFailed_spec hdb error indexedAt).2.lacksMessage h
    | requeueParse id =>
      cases hok
      exact (Db.setContent_keepsMail db id _).lacksMessage h
    | clear =>
      cases hok
      intro m hm
      exact absurd hm List.not_mem_nil
    | applyGcOutcomes deleted =>
      cases hok
      exact h
    | recoverSnapshot snapshot => exact (Db.recoverDomainSnapshot_spec hdb hok).2.lacksMessage h
  · exact h

end RapidInbox

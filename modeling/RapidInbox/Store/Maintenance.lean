import Mathlib.Data.List.Sort
import RapidInbox.Store.Accept

/-!
# Deleting mail

Soft deletes of single deliveries and of messages, the persisted bulk-delete jobs of a mailbox
(`app/services/mailboxes.py:253-479`), and the retention batches of `runtime.py:795-1051` that
remove expired deliveries for good.
-/

namespace RapidInbox

/-- `SET status = 'deleted', deleted_at = COALESCE(deleted_at, ?), expires_at = ?`. -/
def DeliveryRow.softDelete (d : DeliveryRow) (deletedAt : Timestamp) : DeliveryRow :=
  { d with
    status := .deleted
    deletedAt := d.deletedAt.or (some deletedAt)
    expiresAt := some deletedAt }

/-- The summary columns after deletions: a mailbox without active deliveries keeps
    `first_seen_at` and ages from `now`. -/
def MailboxRow.withDeletionSummary (b : MailboxRow) (active : List DeliveryRow) (now : Timestamp) :
    MailboxRow :=
  { b.withSummary active with
    firstSeenAt := (Db.earliestOf active).getD b.firstSeenAt
    lastSeenAt := (Db.latestOf active).getD now }

namespace Db

/-- `UPDATE message_deliveries … WHERE p`, to soft-delete. -/
def softDeleteWhere (db : Db) (p : DeliveryRow → Bool) (deletedAt : Timestamp) : Db :=
  { db with deliveries := Table.updateWhere p (fun d => d.softDelete deletedAt) db.deliveries }

/-- `_refresh_mailbox_summary_after_message_delete`, and the same statement for many mailboxes in
    `_refresh_deleted_mailbox_summaries` and `_refresh_retention_mailbox_summaries`. -/
def refreshDeletionSummaries (db : Db) (p : MailboxRow → Bool) (now : Timestamp) : Db :=
  { db with
    mailboxes := Table.updateWhere p (fun b => b.withDeletionSummary (db.activeIn b.id) now)
      db.mailboxes }

/-- `_delete_requested_deliveries` (`messages.py:591-628`), for one delivery or for all deliveries
    of a message. -/
def deleteRequestedDeliveries (db : Db) (ids : List Text) (deletedAt : Timestamp) : Db :=
  if db.deliveries.any (fun d => decide (d.id ∈ ids) && d.status = .active) then
    let deleted := db.softDeleteWhere (fun d => d.status = .active && decide (d.id ∈ ids)) deletedAt
    deleted.refreshDeletionSummaries
      (fun b => deleted.deliveries.any fun d => decide (d.id ∈ ids) && d.mailboxId = b.id) deletedAt
  else db

/-- `soft_delete_mailbox_deliveries` with explicit ids. -/
def softDeleteMailboxDeliveries (db : Db) (mailboxId : Nat) (ids : List Text)
    (deletedAt now : Timestamp) : Except DbError Db :=
  if (db.mailbox? mailboxId).isNone then .error .notFound
  else if ids.isEmpty then .ok db
  else
    let deleted := db.softDeleteWhere
      (fun d => d.mailboxId = mailboxId && d.status = .active && decide (d.id ∈ ids)) deletedAt
    .ok (deleted.refreshDeletionSummaries (fun b => b.id = mailboxId) now)

/-- `MAX(rowid)` of the deliveries a new job covers. -/
def bulkDeleteFrontier (db : Db) (mailboxId generation : Nat) : Nat :=
  ((db.deliveries.filter fun d =>
    d.mailboxId = mailboxId && d.status = .active && d.mailboxGeneration = generation).map
      DeliveryRow.rowid).foldr max 0

/-- The largest generation that may still be advanced. -/
def maxBulkDeleteGeneration : Nat := 9223372036854775806

/-- The jobs that stay when a new one is created: one finished job per mailbox is replaced. -/
def jobsKept (db : Db) (mailboxId : Nat) : List BulkDeleteJob :=
  db.bulkDeleteJobs.filter fun j => !(j.mailboxId = mailboxId && j.status = .succeeded)

/-- The row of a new job over the current generation of a mailbox. -/
def newBulkDeleteJob (db : Db) (jobId : Text) (mailbox : MailboxRow) (deletedAt : Timestamp) :
    BulkDeleteJob :=
  { id := jobId
    mailboxId := mailbox.id
    status := .pending
    cursorDeliveryRowid := 0
    maxDeliveryRowid := db.bulkDeleteFrontier mailbox.id mailbox.bulkDeleteGeneration
    targetGeneration := mailbox.bulkDeleteGeneration
    deletedCount := 0
    deletedAt := deletedAt }

/-- The tables with a new job: the generation of the mailbox moves on before any page is
    processed. -/
def startBulkDeleteJob (db : Db) (jobId : Text) (mailbox : MailboxRow) (deletedAt : Timestamp) :
    Db :=
  { db.updateMailbox mailbox.id fun b =>
      { b with bulkDeleteGeneration := mailbox.bulkDeleteGeneration + 1 } with
    bulkDeleteJobs := db.jobsKept mailbox.id ++ [db.newBulkDeleteJob jobId mailbox deletedAt] }

/-- `_create_or_resume_bulk_delete_job` (`mailboxes.py:253-346`). -/
def createOrResumeBulkDeleteJob (db : Db) (jobId : Text) (mailboxId : Nat)
    (deletedAt : Timestamp) : Except DbError (Text × Db) :=
  match db.mailbox? mailboxId with
  | none => .error .notFound
  | some mailbox =>
    match db.bulkDeleteJobs.find? fun j => j.mailboxId = mailboxId && j.incomplete with
    | some job => .ok (job.id, db)
    | none =>
      if maxBulkDeleteGeneration ≤ mailbox.bulkDeleteGeneration then .error .overflow
      else if (db.jobsKept mailbox.id).any fun j => j.id = jobId then .error .primaryKey
      else .ok (jobId, db.startBulkDeleteJob jobId mailbox deletedAt)

/-- `MAILBOX_BULK_DELETE_BATCH_SIZE`. -/
def mailboxBulkDeleteBatchSize : Nat := 1000

/-- A delivery that a job still has to delete. -/
def inJobWindow (job : BulkDeleteJob) (d : DeliveryRow) : Bool :=
  d.mailboxId = job.mailboxId && d.status = .active && d.mailboxGeneration = job.targetGeneration &&
    decide (job.cursorDeliveryRowid < d.rowid) && decide (d.rowid ≤ job.maxDeliveryRowid)

/-- `_mailbox_bulk_delete_batch`: the next page of rowids. -/
def bulkDeletePage (db : Db) (job : BulkDeleteJob) (batchSize : Nat) : List Nat :=
  ((db.deliveries.filter (inJobWindow job)).take batchSize).map DeliveryRow.rowid

def updateBulkDeleteJob (db : Db) (jobId : Text) (f : BulkDeleteJob → BulkDeleteJob) : Db :=
  { db with bulkDeleteJobs := Table.updateWhere (fun j => j.id = jobId) f db.bulkDeleteJobs }

/-- The deliveries a page soft-deletes. -/
def inPage (job : BulkDeleteJob) (page : List Nat) (d : DeliveryRow) : Bool :=
  d.mailboxId = job.mailboxId && d.status = .active &&
    d.mailboxGeneration = job.targetGeneration && decide (d.rowid ∈ page)

/-- `next_cursor`. -/
def nextCursor (job : BulkDeleteJob) (page : List Nat) : Nat :=
  if page.isEmpty then job.maxDeliveryRowid else page.foldr max 0

/-- A job is complete when its page was not full or its cursor reached the frontier. -/
def pageCompletes (job : BulkDeleteJob) (page : List Nat) (batchSize : Nat) : Bool :=
  decide (page.length < batchSize) || decide (job.maxDeliveryRowid ≤ nextCursor job page)

/-- The tables after one page of a job. -/
def advanceBulkDeleteJob (db : Db) (job : BulkDeleteJob) (batchSize : Nat) (now : Timestamp) :
    Db :=
  let page := db.bulkDeletePage job batchSize
  let changed := db.deliveries.countP (inPage job page)
  let deleted := db.softDeleteWhere (inPage job page) job.deletedAt
  let complete := pageCompletes job page batchSize
  let refreshed := if complete then
      deleted.refreshDeletionSummaries (fun b => b.id = job.mailboxId) now
    else deleted
  refreshed.updateBulkDeleteJob job.id fun j =>
    { j with
      status := if complete then .succeeded else .running
      cursorDeliveryRowid := nextCursor job page
      deletedCount := job.deletedCount + changed }

/-- `_process_bulk_delete_job_batch` (`mailboxes.py:348-479`). -/
def processBulkDeleteJobBatch (db : Db) (jobId : Text) (batchSize : Nat) (now : Timestamp) :
    Except DbError Db :=
  if batchSize < 1 || mailboxBulkDeleteBatchSize < batchSize then .error .invalidArgument
  else
    match db.bulkDeleteJob? jobId with
    | none => .error .notFound
    | some job =>
      if job.status = .succeeded then .ok db else .ok (db.advanceBulkDeleteJob job batchSize now)

/-- `_mark_bulk_delete_job_failed`. -/
def markBulkDeleteJobFailed (db : Db) (jobId : Text) : Db :=
  db.updateBulkDeleteJob jobId fun j =>
    if j.status = .succeeded then j else { j with status := .failed }

end Db

/-- A row of `_retention_delivery_batch`: a delivery as the snapshot saw it. -/
structure RetentionEntry where
  id : Text
  messageId : Text
  mailboxId : Nat
  status : DeliveryStatus
  deriving DecidableEq, Repr

namespace Db

/-- An expired delivery. -/
def isDue (d : DeliveryRow) (now : Timestamp) : Bool := d.expiresAt.any fun t => decide (t ≤ now)

/-- The order of `_expiration_batch_snapshot`. -/
def dueBefore (a b : DeliveryRow) : Bool :=
  match a.expiresAt, b.expiresAt with
  | some s, some t => decide (s < t) || (s = t && decide (a.id ≤ b.id))
  | _, _ => true

/-- `_expiration_batch_snapshot`, read outside the transaction that deletes. -/
def expirationBatchSnapshot (db : Db) (now : Timestamp) (limit : Nat) : List RetentionEntry :=
  (((db.deliveries.filter fun d => isDue d now).insertionSort fun a b => dueBefore a b).take
    limit).map fun d => ⟨d.id, d.messageId, d.mailboxId, d.status⟩

/-- The snapshot rows that still match a delivery's status and expiry. -/
def revalidate (db : Db) (now : Timestamp) (batch : List RetentionEntry) : List RetentionEntry :=
  batch.filter fun e =>
    db.deliveries.any fun d => d.id = e.id && d.status = e.status && isDue d now

/-- The messages of a batch that have no delivery left. -/
def orphanMessages (db : Db) (batch : List RetentionEntry) : List Text :=
  (batch.map RetentionEntry.messageId).filter fun id =>
    !db.deliveries.any fun d => d.messageId = id

/-- The paths of a message row that are not empty. -/
def rowFiles (m : MessageRow) : List Text :=
  ([m.rawPath] ++ m.content.textBodyPath.toList ++ m.content.htmlBodyPath.toList ++
    [manifestPath m.id m.receivedAt]).filter fun path => !path.isEmpty

/-- `_queue_orphan_message_files`: the files of the messages. -/
def orphanFiles (db : Db) (orphans : List Text) : List Text :=
  ((db.attachments.filter fun a => decide (a.messageId ∈ orphans)).map AttachmentRow.storagePath) ++
    (db.messages.filter fun m => decide (m.id ∈ orphans)).flatMap rowFiles

/-- `INSERT INTO file_gc_tasks … ON CONFLICT`: a path has one task. -/
def queueFile (tasks : List Text) (path : Text) : List Text :=
  if path ∈ tasks then tasks else tasks ++ [path]

/-- `DELETE FROM messages`, with the rows that cascade. -/
def deleteMessages (db : Db) (ids : List Text) : Db :=
  { db with
    messages := db.messages.filter fun m => decide (m.id ∉ ids)
    deliveries := db.deliveries.filter fun d => decide (d.messageId ∉ ids)
    attachments := db.attachments.filter fun a => decide (a.messageId ∉ ids) }

/-- The mailboxes `_delete_stale_empty_mailbox_batch` may delete. -/
def isStaleEmpty (db : Db) (cutoff : Timestamp) (b : MailboxRow) : Bool :=
  b.messageCount = 0 && b.latestMessageAt = none && decide (b.lastSeenAt ≤ cutoff) &&
    !db.deliveries.any fun d => d.mailboxId = b.id

/-- `ORDER BY last_seen_at ASC, id ASC`. -/
def staleBefore (a b : MailboxRow) : Bool :=
  decide (a.lastSeenAt < b.lastSeenAt) || (a.lastSeenAt = b.lastSeenAt && decide (a.id ≤ b.id))

/-- `_delete_stale_empty_mailbox_batch`; the jobs of a deleted mailbox cascade. -/
def deleteStaleEmptyMailboxes (db : Db) (cutoff : Timestamp) (limit : Nat) : Db :=
  let ids := (((db.mailboxes.filter (db.isStaleEmpty cutoff)).insertionSort
    fun a b => staleBefore a b).take limit).map MailboxRow.id
  { db with
    mailboxes := db.mailboxes.filter fun b => decide (b.id ∉ ids)
    bulkDeleteJobs := db.bulkDeleteJobs.filter fun j => decide (j.mailboxId ∉ ids) }

/-- The part of `_expire_delivery_batch` that removes deliveries and orphaned messages. -/
def expireDeliveries (db : Db) (now : Timestamp) (batch : List RetentionEntry) : Db :=
  let batch := db.revalidate now batch
  let ids := batch.map RetentionEntry.id
  let removed : Db := { db with deliveries := db.deliveries.filter fun d => decide (d.id ∉ ids) }
  let orphans := removed.orphanMessages batch
  let queued : Db :=
    { removed with fileGcTasks := (removed.orphanFiles orphans).foldl queueFile removed.fileGcTasks }
  queued.deleteMessages orphans

/-- `_expire_delivery_batch` (`runtime.py:884-977`) on a snapshot of any age.  `refreshedAt` is the
    time of the transaction and `cutoff` the age limit of empty mailboxes; the clean-up of sessions,
    metrics, audit rows and maintenance runs that follows is left out. -/
def expireDeliveryBatch (db : Db) (now refreshedAt cutoff : Timestamp) (limit : Nat)
    (batch : List RetentionEntry) : Db :=
  let mailboxIds := (db.revalidate now batch).map RetentionEntry.mailboxId
  ((db.expireDeliveries now batch).refreshDeletionSummaries
    (fun b => decide (b.id ∈ mailboxIds)) refreshedAt).deleteStaleEmptyMailboxes cutoff limit

/-- `update_mailbox`: the flags and notes an operator may set. -/
def updateMailboxFlags (db : Db) (mailboxId : Nat) (publicEnabled isHidden : Option Bool)
    (notes : Option (Option Text)) : Except DbError Db :=
  if (db.mailbox? mailboxId).isNone then .error .notFound
  else .ok (db.updateMailbox mailboxId fun b =>
    { b with
      publicEnabled := publicEnabled.getD b.publicEnabled
      isHidden := isHidden.getD b.isHidden
      notes := notes.getD b.notes })

end Db
end RapidInbox

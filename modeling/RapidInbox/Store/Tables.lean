import RapidInbox.Lib.Table
import RapidInbox.Ingest.Manifest

/-!
# The database

The tables of `sqlite_schema.sql` that both ingress paths and the maintenance jobs share, and the
statements they are written with.  A statement checks what SQLite checks (primary keys, `UNIQUE`,
foreign keys, `NOT NULL`) and fails with a `DbError`; a transaction is a chain of statements, and a
failed one leaves no trace because its database is never returned.

Audit rows, dashboard counters and the live-event outbox are written by these operations and read
by none of them; they are left out.
-/

namespace RapidInbox

instance : LawfulBEq (Nat × Text) := inferInstance

/-- A row of `domains`: the identity and the policy columns. -/
structure DomainRow where
  id : Nat
  rootDomainAscii : Text
  policy : DomainPolicySnapshot
  deriving DecidableEq, Repr

/-- A row of `mailboxes`. -/
structure MailboxRow where
  id : Nat
  domainId : Nat
  localPartCanonical : Text
  rcptDomainAscii : Text
  addressCanonical : Text
  addressDisplay : Text
  firstSeenAt : Timestamp
  lastSeenAt : Timestamp
  latestMessageAt : Option Timestamp
  messageCount : Nat
  publicEnabled : Bool
  isHidden : Bool
  notes : Option Text
  bulkDeleteGeneration : Nat
  deriving DecidableEq, Repr

/-- `message_deliveries.status`. -/
inductive DeliveryStatus where
  | active
  | hidden
  | deleted
  deriving DecidableEq, Repr

/-- A row of `message_deliveries`; `rowid` is SQLite's own. -/
structure DeliveryRow where
  rowid : Nat
  id : Text
  messageId : Text
  mailboxId : Nat
  rcptTo : Text
  deliveredAt : Timestamp
  status : DeliveryStatus
  deletedAt : Option Timestamp
  expiresAt : Option Timestamp
  notes : Option Text
  mailboxGeneration : Nat
  deriving DecidableEq, Repr

/-- `messages.parse_status`. -/
inductive ParseStatus where
  | pending
  | parsed
  | failed
  deriving DecidableEq, Repr

/-- The columns of `messages` that parsing fills.  Text columns are bytes, as SQLite keeps them;
    `headers_json` is the list it renders. -/
structure MessageContent where
  parseStatus : ParseStatus
  parseError : Option Bytes
  indexedAt : Option Timestamp
  messageIdHeader : Option Bytes
  subject : Option Bytes
  fromName : Option Bytes
  fromAddr : Option Bytes
  replyTo : Option Bytes
  dateHeader : Option Bytes
  hasText : Bool
  hasHtml : Bool
  hasAttachments : Bool
  attachmentCount : Nat
  textPreview : Option Bytes
  textBodyPath : Option Text
  htmlBodyPath : Option Text
  headers : Option (List (Bytes × Bytes))
  verificationCode : Option Bytes
  deriving DecidableEq, Repr

/-- A row of `messages`. -/
structure MessageRow where
  id : Text
  smtpSessionId : Option Text
  rawPath : Text
  rawSha256 : Text
  rawSizeBytes : Nat
  envelopeFrom : Option Text
  receivedAt : Timestamp
  content : MessageContent
  deriving DecidableEq, Repr

/-- A row of `attachments`. -/
structure AttachmentRow where
  id : Text
  messageId : Text
  partIndex : Nat
  filename : Option Bytes
  safeFilename : Text
  contentType : Bytes
  contentDisposition : Option Bytes
  contentId : Option Bytes
  storagePath : Text
  sha256 : Option Text
  sizeBytes : Nat
  isInline : Bool
  createdAt : Timestamp
  deriving DecidableEq, Repr

/-- A row of `smtp_sessions`, in the columns a commit writes. -/
structure SmtpSessionRow where
  id : Text
  remoteIp : Text
  connectAt : Timestamp
  firstCommandAt : Option Timestamp
  lastCommandAt : Option Timestamp
  lastMailFrom : Option Text
  bytesReceived : Nat
  messageCount : Nat
  deriving DecidableEq, Repr

/-- A row of `mail_metric_buckets`; the bucket is the minute of the timestamp. -/
structure MetricBucket where
  bucketTs : Nat
  received : Nat
  deliveries : Nat
  parseFailures : Nat
  deriving DecidableEq, Repr

/-- The status of a persisted job. -/
inductive JobStatus where
  | pending
  | running
  | succeeded
  | failed
  deriving DecidableEq, Repr

/-- A row of `mailbox_bulk_delete_jobs`. -/
structure BulkDeleteJob where
  id : Text
  mailboxId : Nat
  status : JobStatus
  cursorDeliveryRowid : Nat
  maxDeliveryRowid : Nat
  targetGeneration : Nat
  deletedCount : Nat
  deletedAt : Timestamp
  deriving DecidableEq, Repr

/-- `status IN ('pending', 'running', 'failed')`. -/
def BulkDeleteJob.incomplete (j : BulkDeleteJob) : Bool := j.status != .succeeded

/-- A row of `domain_rehome_jobs`, in the columns a batch reads and writes. -/
structure RehomeJob where
  id : Text
  candidateRootDomain : Option Text
  status : JobStatus
  cursorMailboxId : Nat
  maxMailboxId : Nat
  mailboxesScanned : Nat
  mailboxesRehomed : Nat
  deliveriesMoved : Nat
  deliveriesDeduplicated : Nat
  deriving DecidableEq, Repr

/-- A merge of mailbox `source` into mailbox `target`, with the deliveries it stamped with the
    target's generation and left active. -/
structure MergeCall where
  source : Nat
  target : Nat
  stamped : List Text
  deriving DecidableEq, Repr

/-- The database.  `mailboxSeq` and `domainSeq` are the `AUTOINCREMENT` sequences, `tombstones` the
    routing tombstones of `system_settings`, and `merges` is a ghost: the merges made so far. -/
structure Db where
  domains : List DomainRow
  domainSeq : Nat
  tombstones : List (Nat × Text)
  mailboxes : List MailboxRow
  mailboxSeq : Nat
  deliveries : List DeliveryRow
  messages : List MessageRow
  attachments : List AttachmentRow
  sessions : List SmtpSessionRow
  metrics : List MetricBucket
  bulkDeleteJobs : List BulkDeleteJob
  rehomeJobs : List RehomeJob
  fileGcTasks : List Text
  merges : List MergeCall
  deriving DecidableEq, Repr

/-- Why a transaction was rolled back. -/
inductive DbError where
  | uniqueDomainRoot
  | uniqueMailboxAddress
  | uniqueDelivery
  | uniqueMessage
  | uniqueAttachment
  | uniqueJob
  | primaryKey
  | foreignKey
  | notNull
  | policyConflict (rcptTo : Text)
  | policyChanged (rcptTo : Text)
  | invalidDomain
  | invalidArgument
  | overflow
  | notFound
  deriving DecidableEq, Repr

namespace Db

/-- The empty database. -/
def empty : Db := ⟨[], 0, [], [], 0, [], [], [], [], [], [], [], [], []⟩

def domain? (db : Db) (id : Nat) : Option DomainRow := db.domains.find? fun d => d.id = id

def domainByRoot? (db : Db) (root : Text) : Option DomainRow :=
  db.domains.find? fun d => d.rootDomainAscii = root

def mailbox? (db : Db) (id : Nat) : Option MailboxRow := db.mailboxes.find? fun b => b.id = id

/-- `mailboxes` by the unique index on `address_canonical`. -/
def mailboxAt? (db : Db) (address : Text) : Option MailboxRow :=
  db.mailboxes.find? fun b => b.addressCanonical = address

/-- `JOIN domains`: the root of the domain a mailbox belongs to. -/
def ownerRoot? (db : Db) (b : MailboxRow) : Option Text :=
  (db.domain? b.domainId).map DomainRow.rootDomainAscii

def bulkDeleteJob? (db : Db) (id : Text) : Option BulkDeleteJob :=
  db.bulkDeleteJobs.find? fun j => j.id = id

/-- Whether a mailbox has an incomplete bulk-delete job. -/
def hasIncompleteJob (db : Db) (mailboxId : Nat) : Bool :=
  db.bulkDeleteJobs.any fun j => j.mailboxId = mailboxId && j.incomplete

/-- `INSERT INTO mailboxes` with the columns of a match; the other columns have their defaults. -/
def insertMailbox (db : Db) (m : DomainMatch) (seenAt : Timestamp) (messageCount : Nat)
    (latestMessageAt : Option Timestamp) : Except DbError (Nat × Db) :=
  if (db.mailboxAt? m.addressCanonical).isSome then .error .uniqueMailboxAddress
  else if (db.domain? m.domainId).isNone then .error .foreignKey
  else
    let id := db.mailboxSeq + 1
    .ok (id,
      { db with
        mailboxSeq := id
        mailboxes := db.mailboxes ++
          [{ id := id
             domainId := m.domainId
             localPartCanonical := m.localPartCanonical
             rcptDomainAscii := m.domainAscii
             addressCanonical := m.addressCanonical
             addressDisplay := m.addressCanonical
             firstSeenAt := seenAt
             lastSeenAt := seenAt
             latestMessageAt := latestMessageAt
             messageCount := messageCount
             publicEnabled := true
             isHidden := false
             notes := none
             bulkDeleteGeneration := 0 }] })

/-- `UPDATE mailboxes SET … WHERE id = ?` on columns without a constraint. -/
def updateMailbox (db : Db) (id : Nat) (f : MailboxRow → MailboxRow) : Db :=
  { db with mailboxes := Table.updateWhere (fun b => b.id = id) f db.mailboxes }

end Db

/-- The identity columns of a mailbox, taken from a match. -/
def MailboxRow.withIdentity (b : MailboxRow) (m : DomainMatch) : MailboxRow :=
  { b with
    domainId := m.domainId
    localPartCanonical := m.localPartCanonical
    rcptDomainAscii := m.domainAscii
    addressCanonical := m.addressCanonical
    addressDisplay := m.addressCanonical }

namespace Db

/-- `update_mailbox_identity`: the address is unique and the domain exists. -/
def updateMailboxIdentity (db : Db) (id : Nat) (m : DomainMatch) : Except DbError Db :=
  if db.mailboxes.any (fun b => b.addressCanonical = m.addressCanonical && b.id ≠ id) then
    .error .uniqueMailboxAddress
  else if (db.domain? m.domainId).isNone then .error .foreignKey
  else .ok (db.updateMailbox id fun b => b.withIdentity m)

/-- `DELETE FROM mailboxes WHERE id = ?`: deliveries restrict it and jobs go with it. -/
def deleteMailbox (db : Db) (id : Nat) : Except DbError Db :=
  if db.deliveries.any (fun d => d.mailboxId = id) then .error .foreignKey
  else .ok
    { db with
      mailboxes := db.mailboxes.filter fun b => b.id ≠ id
      bulkDeleteJobs := db.bulkDeleteJobs.filter fun j => j.mailboxId ≠ id }

/-- The next `rowid` of a table without `AUTOINCREMENT`. -/
def nextDeliveryRowid (db : Db) : Nat := (db.deliveries.map DeliveryRow.rowid).foldr max 0 + 1

/-- A delivery conflicts with the primary key or with `UNIQUE (message_id, mailbox_id)`. -/
def deliveryConflict (db : Db) (id messageId : Text) (mailboxId : Nat) : Option DbError :=
  if db.deliveries.any (fun d => d.id = id) then some .primaryKey
  else if db.deliveries.any (fun d => d.messageId = messageId && d.mailboxId = mailboxId) then
    some .uniqueDelivery
  else none

/-- The foreign keys of a delivery. -/
def deliveryParentsExist (db : Db) (messageId : Text) (mailboxId : Nat) : Bool :=
  db.messages.any (fun m => m.id = messageId) && (db.mailbox? mailboxId).isSome

/-- The table with a new active delivery. -/
def addDelivery (db : Db) (id messageId : Text) (mailboxId : Nat) (rcptTo : Text)
    (deliveredAt : Timestamp) (expiresAt : Option Timestamp) (generation : Nat) : Db :=
  { db with
    deliveries := db.deliveries ++
      [{ rowid := db.nextDeliveryRowid
         id := id
         messageId := messageId
         mailboxId := mailboxId
         rcptTo := rcptTo
         deliveredAt := deliveredAt
         status := .active
         deletedAt := none
         expiresAt := expiresAt
         notes := none
         mailboxGeneration := generation }] }

/-- `INSERT INTO message_deliveries`. -/
def insertDelivery (db : Db) (id messageId : Text) (mailboxId : Nat) (rcptTo : Text)
    (deliveredAt : Timestamp) (expiresAt : Option Timestamp) (generation : Nat) :
    Except DbError Db :=
  match db.deliveryConflict id messageId mailboxId with
  | some e => .error e
  | none =>
    if db.deliveryParentsExist messageId mailboxId then
      .ok (db.addDelivery id messageId mailboxId rcptTo deliveredAt expiresAt generation)
    else .error .foreignKey

/-- `SELECT bulk_delete_generation FROM mailboxes WHERE id = ?`. -/
def generationOf (db : Db) (mailboxId : Nat) : Nat :=
  ((db.mailbox? mailboxId).map MailboxRow.bulkDeleteGeneration).getD 0

/-- The active deliveries of a mailbox. -/
def activeIn (db : Db) (mailboxId : Nat) : List DeliveryRow :=
  db.deliveries.filter fun d => d.mailboxId = mailboxId && d.status = .active

/-- `MAX(delivered_at)`, `NULL` of no row. -/
def latestOf (rows : List DeliveryRow) : Option Timestamp :=
  (rows.map DeliveryRow.deliveredAt).max?

/-- `MIN(delivered_at)`, `NULL` of no row. -/
def earliestOf (rows : List DeliveryRow) : Option Timestamp :=
  (rows.map DeliveryRow.deliveredAt).min?

/-- `INSERT INTO messages`: the primary key and `UNIQUE (raw_path)`. -/
def messageConflict (db : Db) (row : MessageRow) : Bool :=
  db.messages.any fun m => m.id = row.id || m.rawPath = row.rawPath

/-- The foreign key of a message. -/
def messageParentExists (db : Db) (row : MessageRow) : Bool :=
  match row.smtpSessionId with
  | none => true
  | some s => db.sessions.any fun session => session.id = s

def insertMessage (db : Db) (row : MessageRow) : Except DbError Db :=
  if db.messageConflict row then .error .uniqueMessage
  else if db.messageParentExists row then .ok { db with messages := db.messages ++ [row] }
  else .error .foreignKey

/-- An attachment conflicts with the primary key or with `UNIQUE (message_id, part_index)`. -/
def attachmentConflict (db : Db) (row : AttachmentRow) : Bool :=
  db.attachments.any fun a =>
    a.id = row.id || (a.messageId = row.messageId && a.partIndex = row.partIndex)

def insertAttachment (db : Db) (row : AttachmentRow) : Except DbError Db :=
  if db.attachmentConflict row then .error .uniqueAttachment
  else if db.messages.any (fun m => m.id = row.messageId) then
    .ok { db with attachments := db.attachments ++ [row] }
  else .error .foreignKey

/-- `upsert_metric`: add to a bucket, or create it. -/
def upsertMetric (db : Db) (bucketTs received deliveries parseFailures : Nat) : Db :=
  if db.metrics.any (fun b => b.bucketTs = bucketTs) then
    { db with
      metrics := Table.updateWhere (fun b => b.bucketTs = bucketTs)
        (fun b =>
          { b with
            received := b.received + received
            deliveries := b.deliveries + deliveries
            parseFailures := b.parseFailures + parseFailures }) db.metrics }
  else { db with metrics := db.metrics ++ [⟨bucketTs, received, deliveries, parseFailures⟩] }

/-- `metric_bucket_ts`: the minute of a timestamp. -/
def metricBucketTs (t : Timestamp) : Nat := t / 60

end Db
end RapidInbox

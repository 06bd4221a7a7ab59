import RapidInbox.Lib.ImplicitTransaction
import RapidInbox.Store.Tables
import RapidInbox.Auth.Permissions

/-!
# The lightweight migrations

`app/db/connection.py`: `initialize_database` runs the schema script, then brings a database of an
older version up to date, and commits.  Each step looks for a column before it adds it, and some of
the columns get their meaning only from a later `UPDATE`.

The columns `must_change_password`, `verification_code` and `expires_at` give every old row its
default, and no statement of the migration reads them: of these the model keeps whether they are
there.
-/

namespace RapidInbox

open ImplicitTransaction

/-! ## Tables with a column to add -/

/-- A table with rows `ρ` that the migration gives a column of type `α`. -/
inductive Widened (ρ α : Type) where
  | absent
  | narrow (rows : List ρ)
  | wide (rows : List (ρ × α))
  deriving DecidableEq, Repr

namespace Widened

variable {ρ α : Type}

/-- `CREATE TABLE IF NOT EXISTS` -/
def create : Widened ρ α → Widened ρ α
  | .absent => .wide []
  | table => table

def hasColumn : Widened ρ α → Bool
  | .wide _ => true
  | _ => false

/-- `ALTER TABLE … ADD COLUMN … DEFAULT` -/
def addColumn (default : α) : Widened ρ α → Widened ρ α
  | .narrow rows => .wide (rows.map fun row => (row, default))
  | table => table

/-- `UPDATE … SET` the column -/
def update (f : ρ × α → α) : Widened ρ α → Widened ρ α
  | .wide rows => .wide (rows.map fun row => (row.1, f row))
  | table => table

/-- The rows without the column. -/
def rows : Widened ρ α → List ρ
  | .absent => []
  | .narrow rows => rows
  | .wide rows => rows.map Prod.fst

/-- The rows with the column, once it is there. -/
def entries : Widened ρ α → List (ρ × α)
  | .wide rows => rows
  | _ => []

end Widened

/-- The columns of `messages` the migration reads. -/
structure MessageEntry where
  id : Text
  receivedAt : Text
  parseStatus : ParseStatus
  deriving DecidableEq, Repr

/-- The columns of `message_deliveries` the migration reads; `mailbox_generation` is added to them. -/
structure DeliveryEntry where
  id : Text
  mailboxId : Nat
  deliveredAt : Text
  status : DeliveryStatus
  deriving DecidableEq, Repr

/-- The columns of `mailbox_bulk_delete_jobs` the migration reads; `target_generation` is added. -/
structure BulkDeleteJobEntry where
  id : Text
  mailboxId : Nat
  status : JobStatus
  deriving DecidableEq, Repr

/-- The columns of `smtp_sessions` the migration reads. -/
structure SmtpSessionEntry where
  id : Text
  connectAt : Text
  rcptRejectedCount : Nat
  deriving DecidableEq, Repr

/-- A row of `mail_metric_buckets`, whose columns `received` and `rejected` came later. -/
structure BucketEntry (ρ κ : Type) where
  bucketTs : Text
  received : ρ
  deliveries : Nat
  parseFailures : Nat
  rejected : κ
  deriving DecidableEq, Repr

/-- `mail_metric_buckets`, by the columns it has. -/
inductive MetricBuckets where
  | absent
  | plain (rows : List (BucketEntry Unit Unit))
  | withReceived (rows : List (BucketEntry Nat Unit))
  | withRejected (rows : List (BucketEntry Unit Nat))
  | full (rows : List (BucketEntry Nat Nat))
  deriving DecidableEq, Repr

namespace MetricBuckets

/-- `CREATE TABLE IF NOT EXISTS` -/
def create : MetricBuckets → MetricBuckets
  | .absent => .full []
  | table => table

def hasReceived : MetricBuckets → Bool
  | .withReceived _ | .full _ => true
  | _ => false

def hasRejected : MetricBuckets → Bool
  | .withRejected _ | .full _ => true
  | _ => false

/-- `ADD COLUMN received INTEGER NOT NULL DEFAULT 0` -/
def addReceived : MetricBuckets → MetricBuckets
  | .plain rows => .withReceived (rows.map fun b => { b with received := 0 })
  | .withRejected rows => .full (rows.map fun b => { b with received := 0 })
  | table => table

/-- `ADD COLUMN rejected INTEGER NOT NULL DEFAULT 0` -/
def addRejected : MetricBuckets → MetricBuckets
  | .plain rows => .withRejected (rows.map fun b => { b with rejected := 0 })
  | .withReceived rows => .full (rows.map fun b => { b with rejected := 0 })
  | table => table

/-- `SELECT COUNT(*)` is zero. -/
def isEmpty : MetricBuckets → Bool
  | .absent => true
  | .plain rows => rows.isEmpty
  | .withReceived rows => rows.isEmpty
  | .withRejected rows => rows.isEmpty
  | .full rows => rows.isEmpty

/-- `INSERT … ON CONFLICT(bucket_ts) DO UPDATE SET`: `merge` of the row that is there and the
    excluded one. -/
def upsertRow (merge : BucketEntry Nat Nat → BucketEntry Nat Nat → BucketEntry Nat Nat)
    (rows : List (BucketEntry Nat Nat)) (new : BucketEntry Nat Nat) : List (BucketEntry Nat Nat) :=
  if rows.any fun b => b.bucketTs = new.bucketTs then
    rows.map fun b => if b.bucketTs = new.bucketTs then merge b new else b
  else rows ++ [new]

def upsert (merge : BucketEntry Nat Nat → BucketEntry Nat Nat → BucketEntry Nat Nat)
    (new : List (BucketEntry Nat Nat)) : MetricBuckets → MetricBuckets
  | .full rows => .full (new.foldl (upsertRow merge) rows)
  | table => table

end MetricBuckets

/-- The indexes and the trigger the migration drops or creates. -/
structure SchemaObjects where
  activeMailboxRowidIndex : Bool
  activeMailboxGenerationRowidIndex : Bool
  fillMailboxGenerationTrigger : Bool
  expiresAtIndex : Bool
  expiryScanIndex : Bool
  adminSessionsActiveIndex : Bool
  deriving DecidableEq, Repr

/-- A database of any earlier version.  The tables no column is added to, or only one of the three
    columns above, are there, possibly empty. -/
@[ext]
structure LegacyDatabase where
  adminsHaveMustChangePassword : Bool
  messagesHaveVerificationCode : Bool
  deliveriesHaveExpiresAt : Bool
  messages : List MessageEntry
  mailboxes : Widened Nat Nat
  deliveries : Widened DeliveryEntry Int
  bulkDeleteJobs : Widened BulkDeleteJobEntry Nat
  apiKeys : Widened Text DomainGrantMode
  apiKeyDomainGrants : List Text
  smtpSessions : List SmtpSessionEntry
  metricBuckets : MetricBuckets
  objects : SchemaObjects
  deriving DecidableEq, Repr

namespace LegacyDatabase

/-! ## The statements -/

/-- A table that is created has every column, `expires_at` too. -/
def createDeliveries (d : LegacyDatabase) : LegacyDatabase :=
  match d.deliveries with
  | .absent => { d with deliveries := .wide [], deliveriesHaveExpiresAt := true }
  | _ => d

/-- `SELECT bulk_delete_generation FROM mailboxes WHERE id = ?` -/
def mailboxGeneration? (d : LegacyDatabase) (mailboxId : Nat) : Option Nat :=
  (d.mailboxes.entries.find? fun m => m.1 = mailboxId).map Prod.snd

/-- The backfill of `mailbox_generation`. -/
def fillMailboxGenerations (d : LegacyDatabase) : LegacyDatabase :=
  { d with deliveries := d.deliveries.update fun row =>
      if row.2 = -1 then ((d.mailboxGeneration? row.1.mailboxId).getD 0 : Nat) else row.2 }

/-- A job with the status `pending`, `running` or `failed`. -/
def Incomplete (job : BulkDeleteJobEntry) : Prop :=
  job.status = .pending ∨ job.status = .running ∨ job.status = .failed

instance (job : BulkDeleteJobEntry) : Decidable (Incomplete job) := inferInstanceAs (Decidable (_ ∨ _))

/-- `SELECT target_generation + 1` of a mailbox's incomplete jobs -/
def nextGenerations (d : LegacyDatabase) (mailboxId : Nat) : List Nat :=
  (d.bulkDeleteJobs.entries.filter fun job => job.1.mailboxId = mailboxId ∧ Incomplete job.1).map
    fun job => job.2 + 1

/-- The `UPDATE` that moves every mailbox with an incomplete job past the job's target. -/
def advanceMailboxes (d : LegacyDatabase) : LegacyDatabase :=
  { d with mailboxes := d.mailboxes.update fun m =>
      match (d.nextGenerations m.1).max? with
      | none => m.2
      | some generation => max m.2 generation }

/-- `domain_grant_mode = 'selected'` for the keys that have a domain grant. -/
def selectGrantedKeys (d : LegacyDatabase) : LegacyDatabase :=
  { d with apiKeys := d.apiKeys.update fun key =>
      if key.1 ∈ d.apiKeyDomainGrants then .selected else key.2 }

/-- `substr(ts, 1, 16) || ':00Z'` -/
def bucketTs (ts : Text) : Text := ts.take 16 ++ ":00Z".toList

/-- `SELECT …, value FROM rows GROUP BY bucket_ts` -/
def groupByBucket {α : Type} (ts : α → Text) (value : List α → Nat) (rows : List α) :
    List (Text × Nat) :=
  (rows.map fun row => bucketTs (ts row)).eraseDups.map fun bucket =>
    (bucket, value (rows.filter fun row => bucketTs (ts row) = bucket))

/-- The active deliveries of each minute. -/
def deliveryCounts (d : LegacyDatabase) : List (BucketEntry Nat Nat) :=
  (groupByBucket DeliveryEntry.deliveredAt List.length
    (d.deliveries.rows.filter fun row => row.status = .active)).map fun g => ⟨g.1, 0, g.2, 0, 0⟩

/-- The failed messages of each minute. -/
def parseFailureCounts (d : LegacyDatabase) : List (BucketEntry Nat Nat) :=
  (groupByBucket MessageEntry.receivedAt List.length
    (d.messages.filter fun row => row.parseStatus = .failed)).map fun g => ⟨g.1, 0, 0, g.2, 0⟩

/-- The messages of each minute. -/
def receivedCounts (d : LegacyDatabase) : List (BucketEntry Nat Nat) :=
  (groupByBucket MessageEntry.receivedAt List.length d.messages).map fun g => ⟨g.1, g.2, 0, 0, 0⟩

/-- `SUM(rcpt_rejected_count)` of each minute. -/
def rejectedSums (d : LegacyDatabase) : List (BucketEntry Nat Nat) :=
  (groupByBucket SmtpSessionEntry.connectAt
    (fun rows => (rows.map SmtpSessionEntry.rcptRejectedCount).sum)
    (d.smtpSessions.filter fun row => 0 < row.rcptRejectedCount)).map fun g => ⟨g.1, 0, 0, 0, g.2⟩

/-- An insert into `mail_metric_buckets`. -/
def upsertMetrics (merge : BucketEntry Nat Nat → BucketEntry Nat Nat → BucketEntry Nat Nat)
    (new : List (BucketEntry Nat Nat)) (d : LegacyDatabase) : LegacyDatabase :=
  { d with metricBuckets := d.metricBuckets.upsert merge new }

def insertDeliveryCounts (d : LegacyDatabase) : LegacyDatabase :=
  d.upsertMetrics (fun b new => { b with deliveries := b.deliveries + new.deliveries })
    d.deliveryCounts

def insertParseFailures (d : LegacyDatabase) : LegacyDatabase :=
  d.upsertMetrics (fun b new => { b with parseFailures := b.parseFailures + new.parseFailures })
    d.parseFailureCounts

def insertReceived (d : LegacyDatabase) : LegacyDatabase :=
  d.upsertMetrics (fun b new => { b with received := new.received }) d.receivedCounts

def insertRejected (d : LegacyDatabase) : LegacyDatabase :=
  d.upsertMetrics (fun b new => { b with rejected := new.rejected }) d.rejectedSums

end LegacyDatabase

/-! ## The scripts -/

namespace Migration

open Script LegacyDatabase

/-- `sqlite_schema.sql` between `BEGIN` and `COMMIT`, of the tables and objects above. -/
def createTables : Script LegacyDatabase Unit := do
  statement (.definition fun d =>
    { d with objects := { d.objects with adminSessionsActiveIndex := true } })
  statement (.definition fun d => { d with mailboxes := d.mailboxes.create })
  statement (.definition createDeliveries)
  statement (.definition fun d =>
    { d with objects := { d.objects with fillMailboxGenerationTrigger := true } })
  statement (.definition fun d => { d with metricBuckets := d.metricBuckets.create })
  statement (.definition fun d => { d with apiKeys := d.apiKeys.create })
  statement (.definition fun d => { d with bulkDeleteJobs := d.bulkDeleteJobs.create })

/-- `sqlite_schema.sql`; its `PRAGMA`s touch no row. -/
def schemaScript : Script LegacyDatabase Unit := do
  statement .begin
  createTables
  statement .commit

/-- The columns that get their meaning from their default alone. -/
def addPlainColumns : Script LegacyDatabase Unit := do
  defineUnless (·.adminsHaveMustChangePassword) fun d =>
    { d with adminsHaveMustChangePassword := true }
  defineUnless (·.messagesHaveVerificationCode) fun d =>
    { d with messagesHaveVerificationCode := true }
  defineUnless (·.deliveriesHaveExpiresAt) fun d => { d with deliveriesHaveExpiresAt := true }
  defineUnless (·.mailboxes.hasColumn) fun d => { d with mailboxes := d.mailboxes.addColumn 0 }

/-- `message_deliveries.mailbox_generation`: the column first, its values after. -/
def addMailboxGeneration : Script LegacyDatabase Unit := .read fun d =>
  if d.deliveries.hasColumn then pure () else do
    statement (.definition fun d => { d with deliveries := d.deliveries.addColumn (-1) })
    statement (.modification fillMailboxGenerations)

/-- `mailbox_bulk_delete_jobs.target_generation` -/
def addTargetGeneration : Script LegacyDatabase Unit :=
  defineUnless (·.bulkDeleteJobs.hasColumn) fun d =>
    { d with bulkDeleteJobs := d.bulkDeleteJobs.addColumn 0 }

/-- The indexes of the generations and of the expiry scan, and the trigger. -/
def replaceDeliveryIndexes : Script LegacyDatabase Unit := do
  statement (.definition fun d =>
    { d with objects := { d.objects with activeMailboxRowidIndex := false } })
  statement (.definition fun d =>
    { d with objects := { d.objects with activeMailboxGenerationRowidIndex := true } })
  statement (.definition fun d =>
    { d with objects := { d.objects with fillMailboxGenerationTrigger := true } })
  statement (.definition fun d => { d with objects := { d.objects with expiresAtIndex := true } })
  statement (.definition fun d => { d with objects := { d.objects with expiryScanIndex := true } })

/-- `api_keys.domain_grant_mode` -/
def addDomainGrantMode : Script LegacyDatabase Unit := .read fun d =>
  if d.apiKeys.hasColumn then pure () else do
    statement (.definition fun d => { d with apiKeys := d.apiKeys.addColumn .none })
    statement (.modification selectGrantedKeys)

/-- `_backfill_mail_metric_buckets` -/
def backfillMailMetricBuckets (backfillReceived backfillRejected : Bool) :
    Script LegacyDatabase Unit := do
  let wasEmpty ← query (·.metricBuckets.isEmpty)
  if wasEmpty then
    statement (.modification insertDeliveryCounts)
    statement (.modification insertParseFailures)
  if backfillReceived || wasEmpty then statement (.modification insertReceived)
  if backfillRejected || wasEmpty then statement (.modification insertRejected)

/-- The table of the metrics, its late columns, and the backfill. -/
def addMetricBuckets : Script LegacyDatabase Unit := do
  statement (.definition fun d =>
    { d with objects := { d.objects with adminSessionsActiveIndex := true } })
  statement (.definition fun d => { d with metricBuckets := d.metricBuckets.create })
  let addedReceived ← query fun d => !d.metricBuckets.hasReceived
  let addedRejected ← query fun d => !d.metricBuckets.hasRejected
  if addedReceived then
    statement (.definition fun d => { d with metricBuckets := d.metricBuckets.addReceived })
  if addedRejected then
    statement (.definition fun d => { d with metricBuckets := d.metricBuckets.addRejected })
  backfillMailMetricBuckets addedReceived addedRejected

/-- `_apply_lightweight_migrations` after its `UPDATE` of the mailboxes. -/
def migrateRows : Script LegacyDatabase Unit := do
  replaceDeliveryIndexes
  addDomainGrantMode
  addMetricBuckets

/-- The `UPDATE` of the mailboxes, which opens a transaction if none is open, the rest of the
    migration, and the commit of `connect_database`. -/
def advanceAndCommit : Script LegacyDatabase Unit := do
  statement (.modification advanceMailboxes)
  migrateRows
  statement .commit

/-- `initialize_database` up to the delivery generations. -/
def beforeMailboxGeneration : Script LegacyDatabase Unit := do
  schemaScript
  addPlainColumns

/-- `initialize_database` -/
def initializeDatabase : Script LegacyDatabase Unit := do
  beforeMailboxGeneration
  addMailboxGeneration
  addTargetGeneration
  advanceAndCommit

/-- The database a run to the end leaves. -/
def migrated (d : LegacyDatabase) : LegacyDatabase := (initializeDatabase.run (.idle d)).2.committed

end Migration

/-! ## Later deliveries -/

/-- A direct `INSERT INTO message_deliveries`, without a generation: the foreign key asks for the
    mailbox, and the trigger replaces the column's default. -/
def LegacyDatabase.insertDelivery (d : LegacyDatabase) (row : DeliveryEntry) : Option LegacyDatabase :=
  match d.deliveries, d.mailboxGeneration? row.mailboxId with
  | .wide rows, some generation =>
    let stored : Int := if d.objects.fillMailboxGenerationTrigger then generation else -1
    some { d with deliveries := .wide (rows ++ [(row, stored)]) }
  | _, _ => none

end RapidInbox

import RapidInbox.Lib.Run
import RapidInbox.Store.Maintenance

/-!
# The store as a system

Every write to the database is one transaction of one of these operations; SQLite runs them one
after the other (`BEGIN IMMEDIATE`), so a history is a list of operations, and an operation that
fails leaves the database as it was.
-/

namespace RapidInbox

/-- The Unicode libraries of the two languages. -/
structure StoreEnv where
  cpp : UnicodeOps
  py : UnicodeOps

inductive StoreOp where
  /-- `BatchWriter::write_sqlite_records` -/
  | commit (jobs : List (MailJob × ParseResult))
  /-- `_accept_message_operation` -/
  | accept (request : AcceptRequest)
  /-- `_apply_recovery_manifest` -/
  | recover (manifest : RecoveryManifest) (deliveryIds : Nat → Text)
  | ensureMailbox (m : DomainMatch) (now : Timestamp)
  | rehomeBatch (jobId : Text) (batchSize : Nat)
  | rehomeFailed (jobId : Text)
  | createBulkDelete (jobId : Text) (mailboxId : Nat) (deletedAt : Timestamp)
  | bulkDeleteBatch (jobId : Text) (batchSize : Nat) (now : Timestamp)
  | bulkDeleteFailed (jobId : Text)
  | deleteDeliveries (ids : List Text) (deletedAt : Timestamp)
  | deleteMailboxDeliveries (mailboxId : Nat) (ids : List Text) (deletedAt now : Timestamp)
  | expire (now refreshedAt cutoff : Timestamp) (limit : Nat) (batch : List RetentionEntry)
  | updateMailbox (mailboxId : Nat) (publicEnabled isHidden : Option Bool)
      (notes : Option (Option Text))
  | createDomain (root jobId : Text) (payload : DomainPayload)
  | updateDomain (domainId : Nat) (jobId : Text) (payload : DomainPayload)
  | deleteDomain (domainId : Nat)
  | syncCatchAll (enabled publicWeb publicApi : Bool) (retentionDays : Option Int)
      (maxMessageSizeBytes : Int)

namespace StoreOp

/-- The transaction of an operation. -/
def transaction (E : StoreEnv) (db : Db) : StoreOp → Except DbError Db
  | .commit jobs => BatchWriter.writeSqliteRecords (cppAddressOps E.cpp) db jobs
  | .accept request => db.acceptMessage (pyAddressOps E.py) request
  | .recover manifest ids => db.applyRecoveryManifest (pyAddressOps E.py) manifest ids
  | .ensureMailbox m now => db.ensureMailboxExists (pyAddressOps E.py) m now
  | .rehomeBatch jobId batchSize => db.processRehomeJobBatch (pyAddressOps E.py) jobId batchSize
  | .rehomeFailed jobId => .ok (db.markRehomeJobFailed jobId)
  | .createBulkDelete jobId mailboxId deletedAt =>
    (db.createOrResumeBulkDeleteJob jobId mailboxId deletedAt).map Prod.snd
  | .bulkDeleteBatch jobId batchSize now => db.processBulkDeleteJobBatch jobId batchSize now
  | .bulkDeleteFailed jobId => .ok (db.markBulkDeleteJobFailed jobId)
  | .deleteDeliveries ids deletedAt => .ok (db.deleteRequestedDeliveries ids deletedAt)
  | .deleteMailboxDeliveries mailboxId ids deletedAt now =>
    db.softDeleteMailboxDeliveries mailboxId ids deletedAt now
  | .expire now refreshedAt cutoff limit batch =>
    .ok (db.expireDeliveryBatch now refreshedAt cutoff limit batch)
  | .updateMailbox mailboxId publicEnabled isHidden notes =>
    db.updateMailboxFlags mailboxId publicEnabled isHidden notes
  | .createDomain root jobId payload => db.createDomain (pyAddressOps E.py) root jobId payload
  | .updateDomain domainId jobId payload =>
    db.updateDomain (pyAddressOps E.py) domainId jobId payload
  | .deleteDomain domainId => db.deleteDomain domainId
  | .syncCatchAll enabled publicWeb publicApi retentionDays size =>
    db.syncCatchAllPolicy enabled publicWeb publicApi retentionDays size

end StoreOp

namespace Db

/-- One operation, with the rollback of a failed transaction. -/
def exec (E : StoreEnv) (db : Db) (op : StoreOp) : Db :=
  match op.transaction E db with
  | .ok db' => db'
  | .error _ => db

/-- A history of operations. -/
def run (E : StoreEnv) (db : Db) (ops : List StoreOp) : Db := ops.foldl (exec E) db

/-- Every operation of a history meets a condition on the state it runs in. -/
def Throughout (E : StoreEnv) (P : Db → StoreOp → Prop) : Db → List StoreOp → Prop
  | _, [] => True
  | db, op :: ops => P db op ∧ Throughout E P (db.exec E op) ops

/-- What every operation under its condition preserves, holds in every state of a history. -/
theorem Throughout.invariant {E : StoreEnv} {P : Db → StoreOp → Prop} {Inv : Db → Prop} {db : Db}
    {ops : List StoreOp} (hstep : ∀ db op, Inv db → P db op → Inv (db.exec E op))
    (h : Throughout E P db ops) (hdb : Inv db) :
    ∀ before after, ops = before ++ after → Inv (db.run E before) := by
  induction ops generalizing db with
  | nil =>
    intro before after hsplit
    obtain ⟨rfl, -⟩ := List.append_eq_nil_iff.mp hsplit.symm
    exact hdb
  | cons op ops ih =>
    intro before after hsplit
    cases before with
    | nil => exact hdb
    | cons first before =>
      obtain ⟨rfl, hrest⟩ := List.cons.inj hsplit
      exact ih h.2 (hstep db op hdb h.1) before after hrest

end Db

/-! ## Sample operations -/

/-- Both languages over a library that knows ASCII only. -/
def StoreEnv.ascii : StoreEnv := ⟨.asciiOnly, .asciiOnly⟩

/-- A payload that leaves every column at its default or as it is. -/
def DomainPayload.unset : DomainPayload :=
  ⟨none, none, none, none, none, none, none, none, none, none, none⟩

/-- The match of `local@domain` under a domain row. -/
def sampleMatch (domainId : Nat) (root localPart domain : String) : DomainMatch :=
  { domainId := domainId
    domainAscii := domain.toList
    rootDomainAscii := root.toList
    localPart := localPart.toList
    localPartCanonical := localPart.toList
    addressCanonical := localPart.toList ++ '@' :: domain.toList }

/-- A recipient as `RCPT` records it. -/
def sampleRecipient (deliveryId : String) (m : DomainMatch) : RecipientDelivery :=
  { deliveryId := deliveryId.toList
    rcptTo := m.localPart ++ '@' :: m.domainAscii
    domainMatch := m
    domainPolicy := some (Db.defaultPolicy m.rootDomainAscii) }

/-- A message whose parsing failed. -/
def sampleJob (messageId : String) (receivedAt : Timestamp)
    (recipients : List RecipientDelivery) : MailJob × ParseResult :=
  ({ smtpSessionId := "s".toList
     remoteIp := "192.0.2.1".toList
     messageId := messageId.toList
     envelopeFrom := []
     receivedAt := receivedAt
     rawPath := rawMessagePath messageId.toList receivedAt
     manifestPath := manifestPath messageId.toList receivedAt
     rawSha256 := []
     rawContent := []
     recipients := recipients
     artifactsPersisted := true }, .failed [])

end RapidInbox

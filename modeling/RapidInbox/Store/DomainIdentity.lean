import RapidInbox.Store.MailWrites

/-!
# The identities of domains

A domain is an id with a root.  Ids come from an `AUTOINCREMENT` sequence or from a receipt, and a
rename or a deletion leaves a tombstone of the pair it ends, so the sequence is past every id that
has been in use.
-/

namespace RapidInbox

open Table Relation

/-- The domains, their sequence and the tombstones are the same. -/
structure Db.SameDomains (db db' : Db) : Prop where
  domains : db'.domains = db.domains
  domainSeq : db'.domainSeq = db.domainSeq
  tombstones : db'.tombstones = db.tombstones

/-- Ids that are or were a domain's have been issued by the sequence. -/
structure Db.IdsIssued (db : Db) : Prop where
  domains : ∀ d ∈ db.domains, d.id ≤ db.domainSeq
  tombstones : ∀ t ∈ db.tombstones, t.1 ≤ db.domainSeq

/-- The rules of edits that leave the domains alone. -/
def frozenRules : EditRules := ⟨fun _ _ _ => True, fun _ _ => False, fun _ => True, fun _ => True⟩

variable {db db' db'' : Db}

theorem Db.SameDomains.refl (db : Db) : db.SameDomains db := ⟨rfl, rfl, rfl⟩

theorem Db.SameDomains.trans (h : db.SameDomains db') (h' : db'.SameDomains db'') :
    db.SameDomains db'' :=
  ⟨h'.domains.trans h.domains, h'.domainSeq.trans h.domainSeq, h'.tombstones.trans h.tombstones⟩

theorem Db.MailOnly.sameDomains (h : db.MailOnly db') : db.SameDomains db' :=
  ⟨h.domains, h.domainSeq, h.tombstones⟩

theorem Db.SameDomains.idsIssued (h : db.SameDomains db') (hdb : db.IdsIssued) : db'.IdsIssued := by
  constructor
  · rw [h.domains, h.domainSeq]
    exact hdb.domains
  · rw [h.tombstones, h.domainSeq]
    exact hdb.tombstones

theorem Edit.sameDomains (hedit : Edit frozenRules db db') : db.SameDomains db' := by
  cases hedit with
  | addMailbox hins => exact (Db.insertMailbox_mailOnly hins).sameDomains
  | setIdentity _ _ hupd => exact (Db.updateMailboxIdentity_mailOnly hupd).sameDomains
  | createJob _ hjob =>
    obtain ⟨mailbox, -, -, ⟨job, -, -, -, -, rfl⟩ | ⟨-, -, -, rfl⟩⟩ :=
      Db.createOrResumeBulkDeleteJob_ok hjob
    · exact ⟨rfl, rfl, rfl⟩
    · exact ⟨rfl, rfl, rfl⟩
  | processJob hjob =>
    obtain ⟨job, -, -, -, ⟨-, rfl⟩ | ⟨-, rfl⟩⟩ := Db.processBulkDeleteJobBatch_ok hjob
    · exact ⟨rfl, rfl, rfl⟩
    · unfold Db.advanceBulkDeleteJob
      dsimp only
      split
      · exact ⟨rfl, rfl, rfl⟩
      · exact ⟨rfl, rfl, rfl⟩
  | setDomains _ _ _ hrule => exact hrule.elim
  | addMessage hmsg _ =>
    obtain ⟨-, rfl⟩ := Db.insertMessage_ok hmsg
    exact ⟨rfl, rfl, rfl⟩
  | addAttachment hatt =>
    obtain ⟨-, -, rfl⟩ := Db.insertAttachment_ok hatt
    exact ⟨rfl, rfl, rfl⟩
  | _ => exact ⟨rfl, rfl, rfl⟩

theorem Edits.sameDomains (hedits : Edits frozenRules db db') : db.SameDomains db' := by
  induction hedits with
  | refl => exact .refl db
  | tail _ hedit ih => exact ih.trans hedit.sameDomains

/-- The operations that may change a domain. -/
def StoreOp.WritesDomains : StoreOp → Prop
  | .recover _ _ | .createDomain _ _ _ | .updateDomain _ _ _ | .deleteDomain _ |
    .syncCatchAll _ _ _ _ _ => True
  | _ => False

/-- The other operations leave the domains alone. -/
theorem StoreOp.transaction_sameDomains {E : StoreEnv} {op : StoreOp} (hdb : db.Consistent)
    (hop : ¬op.WritesDomains) (h : op.transaction E db = .ok db') : db.SameDomains db' := by
  have hpy := pyAddressOps_lawful E.py
  have hservice : (serviceRules (fun _ => False) fun _ => True).Le frozenRules :=
    ⟨fun _ => trivial, fun ⟨_, _, hroot⟩ => hroot, fun _ => trivial, fun _ => trivial⟩
  apply Edits.sameDomains
  cases op with
  | commit jobs =>
    refine (BatchWriter.writeSqliteRecords_edits hdb rfl (fun _ => id) (fun _ => id) h).1.mono ?_
    exact ⟨fun _ => trivial, fun hno => hno, fun _ => trivial, fun _ => trivial⟩
  | accept request =>
    exact (Db.acceptMessage_edits hpy trivial (fun _ _ => trivial) h).mono hservice
  | ensureMailbox m now => exact Db.ensureMailboxExists_edits (fun _ _ _ => trivial) h
  | rehomeBatch jobId batchSize => exact (Db.processRehomeJobBatch_edits hpy h).mono hservice
  | rehomeFailed jobId =>
    cases h
    exact .single Db.updateRehomeJob_edit
  | createBulkDelete jobId mailboxId deletedAt =>
    obtain ⟨⟨id, db₁⟩, hjob, rfl⟩ := Except.map_ok_iff.mp h
    exact .single (.createJob trivial hjob)
  | bulkDeleteBatch jobId batchSize now => exact .single (.processJob h)
  | bulkDeleteFailed jobId =>
    cases h
    exact .single .failJob
  | deleteDeliveries ids deletedAt =>
    cases h
    exact Db.deleteRequestedDeliveries_edits
  | deleteMailboxDeliveries mailboxId ids deletedAt now =>
    exact Db.softDeleteMailboxDeliveries_edits h
  | expire now refreshedAt cutoff limit batch =>
    cases h
    exact Db.expireDeliveryBatch_edits
  | updateMailbox mailboxId publicEnabled isHidden notes => exact Db.updateMailboxFlags_edits h
  | _ => exact absurd trivial hop

/-! ## The operations on domains -/

namespace Db

theorem createRehomeJob_sameDomains {jobId : Text} {candidate : Option Text}
    (h : db.createRehomeJob jobId candidate = .ok db') : db.SameDomains db' := by
  unfold createRehomeJob at h
  split at h
  · cases h
  · cases h
    exact ⟨rfl, rfl, rfl⟩

/-- The id of a new domain is the preferred one or the next of the sequence. -/
theorem insertDomain_id {preferred : Option Nat} {root : Text} {policy : DomainPolicySnapshot}
    {id : Nat} (h : db.insertDomain preferred root policy = .ok (id, db')) :
    id = preferred.getD (db.domainSeq + 1) := by
  unfold insertDomain at h
  dsimp only at h
  split at h
  · cases h
  · generalize preferred.getD (db.domainSeq + 1) = next at h
    split at h
    · cases h
    · cases h
      rfl

theorem insertDomain_idsIssued {preferred : Option Nat} {root : Text}
    {policy : DomainPolicySnapshot} {id : Nat} (hdb : db.IdsIssued)
    (h : db.insertDomain preferred root policy = .ok (id, db')) : db'.IdsIssued := by
  obtain ⟨-, -, rfl⟩ := insertDomain_ok h
  constructor
  · intro d hd
    rcases List.mem_append.mp hd with hd | hd
    · exact Nat.le_trans (hdb.domains d hd) (Nat.le_max_left _ _)
    · rw [List.mem_singleton.mp hd]
      exact Nat.le_max_right _ _
  · intro t ht
    exact Nat.le_trans (hdb.tombstones t ht) (Nat.le_max_left _ _)

theorem createDomain_idsIssued {A : AddressOps} {root jobId : Text} {payload : DomainPayload}
    (hdb : db.IdsIssued) (h : db.createDomain A root jobId payload = .ok db') : db'.IdsIssued := by
  unfold createDomain at h
  split at h
  · cases h
  · dsimp only at h
    split at h
    · cases h
    · rename_i hins
      have hins' := insertDomain_idsIssued hdb hins
      split at h
      · exact (createRehomeJob_sameDomains h).idsIssued hins'
      · cases h
        exact hins'

theorem updateDomain_idsIssued {A : AddressOps} {domainId : Nat} {jobId : Text}
    {payload : DomainPayload} (hdb : db.IdsIssued)
    (h : db.updateDomain A domainId jobId payload = .ok db') : db'.IdsIssued := by
  obtain ⟨row, hrow, root, policy, tombstones, written, hid, -, -, htombstones, rfl, hcase⟩ :=
    updateDomain_ok h
  have hwritten : Db.IdsIssued
      { db with
        domains := updateWhere (fun d => d.id = domainId) (fun _ => ⟨domainId, root, policy⟩)
          db.domains
        tombstones := tombstones } := by
    have hle : domainId ≤ db.domainSeq := hid ▸ hdb.domains row hrow
    constructor
    · intro d hd
      obtain ⟨c, hc, rfl⟩ := mem_updateWhere.mp hd
      split
      · exact hle
      · exact hdb.domains c hc
    · intro t ht
      rcases htombstones t ht with ht | rfl
      · exact hdb.tombstones t ht
      · exact hle
  rcases hcase with rfl | hjob
  · exact hwritten
  · exact (createRehomeJob_sameDomains hjob).idsIssued hwritten

theorem deleteDomain_idsIssued {domainId : Nat} (hdb : db.IdsIssued)
    (h : db.deleteDomain domainId = .ok db') : db'.IdsIssued := by
  unfold deleteDomain at h
  split at h
  · cases h
  · rename_i row hrow
    obtain ⟨hmem, hid⟩ := find?_key hrow
    split at h
    · cases h
    · split at h
      · cases h
      · cases h
        constructor
        · exact fun d hd => hdb.domains d (List.mem_of_mem_filter hd)
        · intro t ht
          rcases List.mem_append.mp ht with ht | ht
          · exact hdb.tombstones t ht
          · rw [List.mem_singleton.mp ht, ← hid]
            exact hdb.domains row hmem

theorem syncCatchAllPolicy_idsIssued {enabled publicWeb publicApi : Bool}
    {retentionDays : Option Int} {size : Int} (hdb : db.IdsIssued)
    (h : db.syncCatchAllPolicy enabled publicWeb publicApi retentionDays size = .ok db') :
    db'.IdsIssued := by
  unfold syncCatchAllPolicy at h
  split at h
  · split at h
    · cases h
      exact hdb
    · split at h
      · cases h
      · rename_i hins
        cases h
        exact insertDomain_idsIssued hdb hins
  · cases h
    refine ⟨?_, hdb.tombstones⟩
    intro d hd
    obtain ⟨c, hc, rfl⟩ := mem_updateWhere.mp hd
    split
    · exact hdb.domains c hc
    · exact hdb.domains c hc

/-! ## The parser -/

theorem applyParsedMessage_sameDomains {messageId : Text} {content : MessageContent}
    {attachments : List AttachmentRow}
    (h : db.applyParsedMessage messageId content attachments = .ok db') : db.SameDomains db' := by
  have hstep (s : Db) (hs : db.SameDomains s) (row : AttachmentRow) (_ : row ∈ attachments)
      (s' : Db) (hins : s.insertAttachment row = .ok s') : db.SameDomains s' := by
    obtain ⟨-, -, rfl⟩ := insertAttachment_ok hins
    exact hs.trans ⟨rfl, rfl, rfl⟩
  have hstart : db.SameDomains ((db.setContent messageId fun _ => content).dropAttachments messageId) :=
    ⟨rfl, rfl, rfl⟩
  exact Transition.foldlM_invariant hstep hstart h

theorem markMessageParseFailed_sameDomains {messageId : Text} (error : Bytes)
    (indexedAt : Timestamp) : db.SameDomains (db.markMessageParseFailed messageId error indexedAt) := by
  unfold markMessageParseFailed
  dsimp only
  split
  · exact ⟨rfl, rfl, rfl⟩
  · split
    · exact ⟨rfl, rfl, rfl⟩
    · obtain ⟨metrics, hmetrics⟩ := BatchWriter.upsertMetric_eq
        ((db.dropAttachments messageId).setContent messageId fun _ => failedContent error indexedAt)
        (metricBucketTs _) 0 0 1
      rw [hmetrics]
      exact ⟨rfl, rfl, rfl⟩

end Db
end RapidInbox

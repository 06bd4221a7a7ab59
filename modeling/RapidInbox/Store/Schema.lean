import Mathlib.Logic.Relation
import RapidInbox.Store.System

/-!
# What the schema enforces

`Db.Consistent` collects the constraints of `sqlite_schema.sql`.  Every operation is a chain of
`Edit`s, the table changes the statements can make, so a property of the database that no edit
breaks holds of every history.
-/

namespace RapidInbox

open Table

/-- The primary keys, unique columns and foreign keys of the schema. -/
structure Db.Consistent (db : Db) : Prop where
  domain_ids : UniqueKey DomainRow.id db.domains
  domain_roots : UniqueKey DomainRow.rootDomainAscii db.domains
  mailbox_ids : UniqueKey MailboxRow.id db.mailboxes
  mailbox_seq : ∀ b ∈ db.mailboxes, b.id ≤ db.mailboxSeq
  mailbox_addresses : UniqueKey MailboxRow.addressCanonical db.mailboxes
  mailbox_domains : ∀ b ∈ db.mailboxes, ∃ d ∈ db.domains, d.id = b.domainId
  delivery_ids : UniqueKey DeliveryRow.id db.deliveries
  delivery_rowids : db.deliveries.Pairwise fun d d' => d.rowid < d'.rowid
  delivery_rowids_pos : ∀ d ∈ db.deliveries, 0 < d.rowid
  delivery_keys : UniqueKey (fun d : DeliveryRow => (d.messageId, d.mailboxId)) db.deliveries
  delivery_mailboxes : ∀ d ∈ db.deliveries, ∃ b ∈ db.mailboxes, b.id = d.mailboxId
  delivery_messages : ∀ d ∈ db.deliveries, ∃ m ∈ db.messages, m.id = d.messageId
  message_ids : UniqueKey MessageRow.id db.messages
  attachment_keys : UniqueKey (fun a : AttachmentRow => (a.messageId, a.partIndex)) db.attachments
  attachment_messages : ∀ a ∈ db.attachments, ∃ m ∈ db.messages, m.id = a.messageId
  job_ids : UniqueKey BulkDeleteJob.id db.bulkDeleteJobs
  job_mailboxes : ∀ j ∈ db.bulkDeleteJobs, ∃ b ∈ db.mailboxes, b.id = j.mailboxId
  job_incomplete : ∀ j ∈ db.bulkDeleteJobs, ∀ j' ∈ db.bulkDeleteJobs, j.mailboxId = j'.mailboxId →
    j.incomplete → j'.incomplete → j = j'

/-- An update of a mailbox that keeps its identity, its address and its generation. -/
structure KeepsIdentity (f : MailboxRow → MailboxRow) : Prop where
  id : ∀ b, (f b).id = b.id
  domainId : ∀ b, (f b).domainId = b.domainId
  addressCanonical : ∀ b, (f b).addressCanonical = b.addressCanonical
  bulkDeleteGeneration : ∀ b, (f b).bulkDeleteGeneration = b.bulkDeleteGeneration

/-- A row that mail adds: a message, or a delivery of a message. -/
inductive MailInsert where
  | message (id : Text)
  | delivery (id messageId : Text)

/-- What an operation may do beyond the schema: which mailbox may take over the identity of which
    match, which table may replace the domains, and which ids new bulk-delete jobs and new mail may
    have. -/
structure EditRules where
  rename : Db → MailboxRow → DomainMatch → Prop
  redomain : Db → List DomainRow → Prop
  newJob : Text → Prop
  newMail : MailInsert → Prop

/-- One change of the tables. -/
inductive Edit (rules : EditRules) (db : Db) : Db → Prop
  | addMailbox {m : DomainMatch} {seenAt : Timestamp} {count : Nat} {latest : Option Timestamp}
      {id : Nat} {db' : Db} (h : db.insertMailbox m seenAt count latest = .ok (id, db')) :
      Edit rules db db'
  | setIdentity {b : MailboxRow} {m : DomainMatch} {db' : Db} (hb : b ∈ db.mailboxes)
      (hown : rules.rename db b m) (h : db.updateMailboxIdentity b.id m = .ok db') : Edit rules db db'
  | setColumns {p : MailboxRow → Bool} {f : MailboxRow → MailboxRow} (hf : KeepsIdentity f) :
      Edit rules db { db with mailboxes := updateWhere p f db.mailboxes }
  | mergeDeliveries {read : Text → Text} {source target : Nat} (hne : source ≠ target)
      (ht : ∃ b ∈ db.mailboxes, b.id = target) : Edit rules db (db.mergeDeliveries read source target)
  | dropMailboxes {p : Nat → Bool} (h : ∀ d ∈ db.deliveries, p d.mailboxId) :
      Edit rules db
        { db with
          mailboxes := db.mailboxes.filter fun b => p b.id
          bulkDeleteJobs := db.bulkDeleteJobs.filter fun j => p j.mailboxId }
  | addDelivery {id messageId : Text} {mailboxId : Nat} {rcptTo : Text} {deliveredAt : Timestamp}
      {expiresAt : Option Timestamp} (hnew : rules.newMail (.delivery id messageId))
      (hc : db.deliveryConflict id messageId mailboxId = none)
      (hp : db.deliveryParentsExist messageId mailboxId) :
      Edit rules db (db.addDelivery id messageId mailboxId rcptTo deliveredAt expiresAt
        (db.generationOf mailboxId))
  | softDelete {p : DeliveryRow → Bool} {deletedAt : Timestamp} :
      Edit rules db (db.softDeleteWhere p deletedAt)
  | dropDeliveries {p : DeliveryRow → Bool} :
      Edit rules db { db with deliveries := db.deliveries.filter p }
  | dropMessages {ids : List Text} : Edit rules db (db.deleteMessages ids)
  | createJob {jobId : Text} {mailboxId : Nat} {deletedAt : Timestamp} {id : Text} {db' : Db}
      (hrule : rules.newJob jobId)
      (h : db.createOrResumeBulkDeleteJob jobId mailboxId deletedAt = .ok (id, db')) :
      Edit rules db db'
  | processJob {jobId : Text} {batchSize : Nat} {now : Timestamp} {db' : Db}
      (h : db.processBulkDeleteJobBatch jobId batchSize now = .ok db') : Edit rules db db'
  | failJob {jobId : Text} : Edit rules db (db.markBulkDeleteJobFailed jobId)
  | setDomains {domains : List DomainRow} {seq : Nat} {tombstones : List (Nat × Text)}
      (hids : UniqueKey DomainRow.id domains) (hroots : UniqueKey DomainRow.rootDomainAscii domains)
      (hmail : ∀ b ∈ db.mailboxes, ∃ d ∈ domains, d.id = b.domainId)
      (hrule : rules.redomain db domains) :
      Edit rules db { db with domains := domains, domainSeq := seq, tombstones := tombstones }
  | addMessage {row : MessageRow} {db' : Db} (h : db.insertMessage row = .ok db')
      (hnew : rules.newMail (.message row.id)) : Edit rules db db'
  | addAttachment {row : AttachmentRow} {db' : Db} (h : db.insertAttachment row = .ok db') :
      Edit rules db db'
  | bookkeeping {sessions : List SmtpSessionRow} {metrics : List MetricBucket}
      {rehomeJobs : List RehomeJob} {fileGcTasks : List Text} :
      Edit rules db
        { db with
          sessions := sessions
          metrics := metrics
          rehomeJobs := rehomeJobs
          fileGcTasks := fileGcTasks }

/-- A chain of edits. -/
abbrev Edits (rules : EditRules) : Db → Db → Prop :=
  Relation.ReflTransGen (Edit rules)

/-! ## Inversion of the checked statements -/

namespace Db

theorem insertMailbox_ok {db db' : Db} {m : DomainMatch} {seenAt : Timestamp} {count id : Nat}
    {latest : Option Timestamp} (h : db.insertMailbox m seenAt count latest = .ok (id, db')) :
    db.mailboxAt? m.addressCanonical = none ∧ (∃ d ∈ db.domains, d.id = m.domainId) ∧
      id = db.mailboxSeq + 1 ∧
      db' = { db with
        mailboxSeq := id
        mailboxes := db.mailboxes ++
          [{ id := id
             domainId := m.domainId
             localPartCanonical := m.localPartCanonical
             rcptDomainAscii := m.domainAscii
             addressCanonical := m.addressCanonical
             addressDisplay := m.addressCanonical
             firstSeenAt := seenAt
             lastSeenAt := seenAt
             latestMessageAt := latest
             messageCount := count
             publicEnabled := true
             isHidden := false
             notes := none
             bulkDeleteGeneration := 0 }] } := by
  unfold insertMailbox at h
  split at h
  · cases h
  · rename_i haddr
    split at h
    · cases h
    · rename_i hdom
      cases h
      refine ⟨by simpa using haddr, ?_, rfl, rfl⟩
      obtain ⟨d, hd⟩ := Option.ne_none_iff_exists'.mp (by simpa using hdom)
      exact ⟨d, find?_key hd⟩

theorem updateMailboxIdentity_ok {db db' : Db} {id : Nat} {m : DomainMatch}
    (h : db.updateMailboxIdentity id m = .ok db') :
    (∀ b ∈ db.mailboxes, b.addressCanonical = m.addressCanonical → b.id = id) ∧
      (∃ d ∈ db.domains, d.id = m.domainId) ∧
      db' = db.updateMailbox id fun b => b.withIdentity m := by
  unfold updateMailboxIdentity at h
  split at h
  · cases h
  · rename_i haddr
    split at h
    · cases h
    · rename_i hdom
      cases h
      refine ⟨?_, ?_, rfl⟩
      · intro b hb hba
        by_contra hne
        apply haddr
        rw [List.any_eq_true]
        exact ⟨b, hb, by simp [hba, hne]⟩
      · obtain ⟨d, hd⟩ := Option.ne_none_iff_exists'.mp (by simpa using hdom)
        exact ⟨d, find?_key hd⟩

/-- A turn of the rehome loop changes nothing or promotes the mailbox. -/
theorem rehomeRow_ok {db db' : Db} {A : AddressOps} {matcher : DomainMatcher}
    {candidate : Option Text} {row : MailboxRow} {result : PromoteResult}
    (h : rehomeRow A matcher candidate row db = .ok (result, db')) :
    db' = db ∨ ∃ m, matcher.matchAddress A row.addressCanonical = some m ∧
      db.promoteMailboxOwnership row.id m = .ok (result, db') := by
  unfold rehomeRow at h
  split at h
  · cases h
    exact .inl rfl
  · split at h
    · cases h
      exact .inl rfl
    · rename_i m hm
      split at h
      · cases h
        exact .inl rfl
      · exact .inr ⟨m, hm, h⟩

theorem processRehomeJobBatch_ok {db db' : Db} {A : AddressOps} {jobId : Text} {batchSize : Nat}
    (h : db.processRehomeJobBatch A jobId batchSize = .ok db') :
    db' = db ∨ ∃ job matcher totals db₁, db.loadActiveDomainMatcher A = .ok matcher ∧
      rehomePage A matcher job.candidateRootDomain (db.rehomeJobPage job batchSize) ⟨0, 0, 0⟩ db =
        .ok (totals, db₁) ∧
      db' = db₁.updateRehomeJob job.id fun j => j.advance (db.rehomeJobPage job batchSize) totals := by
  unfold processRehomeJobBatch at h
  split at h
  · cases h
  · split at h
    · cases h
    · rename_i job _
      split at h
      · cases h
        exact .inl rfl
      · unfold advanceRehomeJob at h
        dsimp only at h
        split at h
        · cases h
        · rename_i matcher hmatcher
          split at h
          · cases h
          · rename_i totals db₁ hpage
            cases h
            exact .inr ⟨job, matcher, totals, db₁, hmatcher, hpage, rfl⟩

theorem deleteMailbox_ok {db db' : Db} {id : Nat} (h : db.deleteMailbox id = .ok db') :
    (∀ d ∈ db.deliveries, d.mailboxId ≠ id) ∧
      db' = { db with
        mailboxes := db.mailboxes.filter fun b => b.id ≠ id
        bulkDeleteJobs := db.bulkDeleteJobs.filter fun j => j.mailboxId ≠ id } := by
  unfold deleteMailbox at h
  split at h
  · cases h
  · rename_i hdel
    cases h
    refine ⟨?_, rfl⟩
    intro d hd heq
    apply hdel
    rw [List.any_eq_true]
    exact ⟨d, hd, by simpa using heq⟩

theorem deliveryConflict_none {db : Db} {id messageId : Text} {mailboxId : Nat}
    (h : db.deliveryConflict id messageId mailboxId = none) :
    (∀ d ∈ db.deliveries, d.id ≠ id) ∧
      ∀ d ∈ db.deliveries, ¬(d.messageId = messageId ∧ d.mailboxId = mailboxId) := by
  unfold deliveryConflict at h
  split at h
  · cases h
  · rename_i hid
    split at h
    · cases h
    · rename_i hkey
      constructor
      · intro d hd heq
        apply hid
        rw [List.any_eq_true]
        exact ⟨d, hd, by simpa using heq⟩
      · intro d hd heq
        apply hkey
        rw [List.any_eq_true]
        exact ⟨d, hd, by simpa using heq⟩

theorem deliveryParentsExist_iff {db : Db} {messageId : Text} {mailboxId : Nat} :
    db.deliveryParentsExist messageId mailboxId = true ↔
      (∃ m ∈ db.messages, m.id = messageId) ∧ ∃ b ∈ db.mailboxes, b.id = mailboxId := by
  unfold deliveryParentsExist
  rw [Bool.and_eq_true, List.any_eq_true, Option.isSome_iff_exists]
  constructor
  · rintro ⟨⟨m, hm, hid⟩, b, hb⟩
    exact ⟨⟨m, hm, by simpa using hid⟩, b, find?_key hb⟩
  · rintro ⟨⟨m, hm, hid⟩, b, hb, hbid⟩
    refine ⟨⟨m, hm, by simpa using hid⟩, ?_⟩
    have hsome : (db.mailbox? mailboxId).isSome := by
      rw [mailbox?, List.find?_isSome]
      exact ⟨b, hb, by simpa using hbid⟩
    exact Option.isSome_iff_exists.mp hsome

theorem insertDelivery_ok {db db' : Db} {id messageId rcptTo : Text} {mailboxId generation : Nat}
    {deliveredAt : Timestamp} {expiresAt : Option Timestamp}
    (h : db.insertDelivery id messageId mailboxId rcptTo deliveredAt expiresAt generation = .ok db') :
    db.deliveryConflict id messageId mailboxId = none ∧
      db.deliveryParentsExist messageId mailboxId = true ∧
      db' = db.addDelivery id messageId mailboxId rcptTo deliveredAt expiresAt generation := by
  unfold insertDelivery at h
  split at h
  · cases h
  · rename_i hc
    split at h
    · rename_i hp
      cases h
      exact ⟨hc, hp, rfl⟩
    · cases h

theorem insertMessage_ok {db db' : Db} {row : MessageRow} (h : db.insertMessage row = .ok db') :
    (∀ m ∈ db.messages, m.id ≠ row.id) ∧ db' = { db with messages := db.messages ++ [row] } := by
  unfold insertMessage at h
  split at h
  · cases h
  · rename_i hc
    split at h
    · cases h
      refine ⟨?_, rfl⟩
      intro m hm heq
      apply hc
      rw [messageConflict, List.any_eq_true]
      exact ⟨m, hm, by simp [heq]⟩
    · cases h

theorem insertAttachment_ok {db db' : Db} {row : AttachmentRow}
    (h : db.insertAttachment row = .ok db') :
    (∀ a ∈ db.attachments, (a.messageId, a.partIndex) ≠ (row.messageId, row.partIndex)) ∧
      (∃ m ∈ db.messages, m.id = row.messageId) ∧
      db' = { db with attachments := db.attachments ++ [row] } := by
  unfold insertAttachment at h
  split at h
  · cases h
  · rename_i hc
    split at h
    · rename_i hm
      cases h
      refine ⟨?_, ?_, rfl⟩
      · intro a ha heq
        apply hc
        rw [attachmentConflict, List.any_eq_true]
        refine ⟨a, ha, ?_⟩
        simp only [Prod.mk.injEq] at heq
        simp [heq]
      · simpa using hm
    · cases h

theorem createOrResumeBulkDeleteJob_ok {db db' : Db} {jobId id : Text} {mailboxId : Nat}
    {deletedAt : Timestamp}
    (h : db.createOrResumeBulkDeleteJob jobId mailboxId deletedAt = .ok (id, db')) :
    ∃ mailbox ∈ db.mailboxes, mailbox.id = mailboxId ∧
      ((∃ job ∈ db.bulkDeleteJobs,
          job.mailboxId = mailboxId ∧ job.incomplete ∧ id = job.id ∧ db' = db) ∨
        (∀ j ∈ db.bulkDeleteJobs, j.mailboxId = mailboxId → j.incomplete = false) ∧
          (∀ j ∈ db.jobsKept mailbox.id, j.id ≠ jobId) ∧ id = jobId ∧
          db' = db.startBulkDeleteJob jobId mailbox deletedAt) := by
  unfold createOrResumeBulkDeleteJob at h
  split at h
  · cases h
  · rename_i mailbox hmailbox
    obtain ⟨hmem, hid⟩ := find?_key hmailbox
    refine ⟨mailbox, hmem, hid, ?_⟩
    split at h
    · rename_i job hjob
      cases h
      have hsat := List.find?_some hjob
      rw [Bool.and_eq_true, decide_eq_true_iff] at hsat
      exact .inl ⟨job, List.mem_of_find?_eq_some hjob, hsat.1, hsat.2, rfl, rfl⟩
    · rename_i hnone
      split at h
      · cases h
      · split at h
        · cases h
        · rename_i hfresh
          cases h
          refine .inr ⟨?_, ?_, rfl, rfl⟩
          · intro j hj hjm
            have := List.find?_eq_none.mp hnone j hj
            simpa [hjm] using this
          · intro j hj hjid
            apply hfresh
            rw [List.any_eq_true]
            exact ⟨j, hj, by simpa using hjid⟩

theorem processBulkDeleteJobBatch_ok {db db' : Db} {jobId : Text} {batchSize : Nat}
    {now : Timestamp} (h : db.processBulkDeleteJobBatch jobId batchSize now = .ok db') :
    ∃ job ∈ db.bulkDeleteJobs, job.id = jobId ∧ 1 ≤ batchSize ∧
      (job.incomplete = false ∧ db' = db ∨
        job.incomplete ∧ db' = db.advanceBulkDeleteJob job batchSize now) := by
  unfold processBulkDeleteJobBatch at h
  split at h
  · cases h
  · rename_i hsize
    have hpos : 1 ≤ batchSize := by
      by_contra hlt
      apply hsize
      rw [Bool.or_eq_true, decide_eq_true_iff]
      exact .inl (by omega)
    split at h
    · cases h
    · rename_i job hjob
      obtain ⟨hmem, hid⟩ := find?_key hjob
      refine ⟨job, hmem, hid, hpos, ?_⟩
      split at h
      · rename_i hdone
        cases h
        exact .inl ⟨by simp [BulkDeleteJob.incomplete, hdone], rfl⟩
      · rename_i hdone
        cases h
        exact .inr ⟨by simp [BulkDeleteJob.incomplete, hdone], rfl⟩

end Db
end RapidInbox

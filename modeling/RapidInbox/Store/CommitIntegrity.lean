import RapidInbox.Store.RecipientLoop

/-!
# The integrity of a commit

A batch of jobs whose ids are new is stored, with one delivery for each `(domain_id, address)` of a
job, exactly when no two recipients of a job clash: addresses that were different when they were
accepted can name one mailbox under the rules of the commit.
-/

namespace RapidInbox

open Table

namespace BatchWriter

open Db

variable {A : AddressOps} {db db' : Db}

/-- The ids of a batch are new: the daemon draws the ids of messages, deliveries and attachments, and
    names the raw file after the message. -/
structure FreshBatch (db : Db) (jobs : List (MailJob × ParseResult)) : Prop where
  messages : ∀ x ∈ jobs, ∀ row ∈ db.messages, row.id ≠ x.1.messageId ∧ row.rawPath ≠ x.1.rawPath
  attachments : ∀ x ∈ jobs, ∀ a ∈ attachmentsOf x.2, ∀ row ∈ db.attachments,
    row.id ≠ a.attachmentId
  deliveries : ∀ x ∈ jobs, ∀ r ∈ x.1.recipients, ∀ d ∈ db.deliveries, d.id ≠ r.deliveryId
  message_ids : (jobs.map fun x => x.1.messageId).Nodup
  raw_paths : (jobs.map fun x => x.1.rawPath).Nodup
  attachment_ids :
    (jobs.flatMap fun x => (attachmentsOf x.2).map ParsedAttachment.attachmentId).Nodup
  part_indexes : ∀ x ∈ jobs, ((attachmentsOf x.2).map ParsedAttachment.partIndex).Nodup
  delivery_ids : (jobs.flatMap fun x => x.1.recipients.map RecipientDelivery.deliveryId).Nodup

/-- What the commit of a job has to achieve: mailbox addresses stay unique, and every first recipient
    of a key has one delivery, in the mailbox with the address of its match. -/
structure Delivered (A : AddressOps) (db : Db) (job : MailJob) (db' : Db) : Prop where
  addresses : UniqueKey MailboxRow.addressCanonical db'.mailboxes
  deliveries : List.Forall₂ (fun d p => d.id = p.1.deliveryId ∧ ∃ b ∈ db'.mailboxes,
      b.id = d.mailboxId ∧ b.addressCanonical = p.2.addressCanonical)
    (db'.deliveries.filter fun d => d.messageId = job.messageId)
    (firstByKey [] (resolved A db job))

/-- Every job of the batch is stored as it has to be. -/
def CommitsEach (A : AddressOps) : Db → List (MailJob × ParseResult) → Prop
  | _, [] => True
  | db, (job, result) :: rest =>
    ∃ db', storeJob A db job result = .ok db' ∧ Delivered A db job db' ∧ CommitsEach A db' rest

/-- The addresses of the managed matches of a job. -/
def takenAddresses (A : AddressOps) (db : Db) (job : MailJob) : List Text :=
  ((firstByKey [] (resolved A db job)).filter fun p => p.2.managed).map
    fun p => p.2.addressCanonical

/-- No two recipients of a job clash, where a managed domain holds the addresses it held before the
    batch and those the earlier jobs have taken. -/
def BatchClear (A : AddressOps) (db : Db) : List Text → List (MailJob × ParseResult) → Prop
  | _, [] => True
  | taken, (job, _) :: rest =>
    (firstByKey [] (resolved A db job)).Pairwise (fun p q =>
      ¬Clash A db (fun a => db.managedAt a = true ∨ a ∈ taken) p q) ∧
    BatchClear A db (takenAddresses A db job ++ taken) rest

/-! ## The message and its attachments -/

theorem insertMessage_new {s : Text} (db : Db) (row : MessageRow)
    (hnew : ∀ m ∈ db.messages, m.id ≠ row.id ∧ m.rawPath ≠ row.rawPath)
    (hsession : row.smtpSessionId = some s) (hmem : ∃ session ∈ db.sessions, session.id = s) :
    db.insertMessage row = .ok { db with messages := db.messages ++ [row] } := by
  have hconflict : db.messageConflict row = false := by
    unfold messageConflict
    simpa [not_or] using hnew
  have hparent : db.messageParentExists row = true := by
    unfold messageParentExists
    rw [hsession]
    simpa using hmem
  unfold insertMessage
  rw [hconflict, hparent]
  rfl

theorem upsertSession_mem (db : Db) (job : MailJob) :
    ∃ session ∈ (upsertSession db job).sessions, session.id = job.smtpSessionId := by
  unfold upsertSession
  split
  · rename_i hany
    obtain ⟨session, hmem, hid⟩ := List.any_eq_true.mp hany
    refine ⟨_, mem_updateWhere.mpr ⟨session, hmem, rfl⟩, ?_⟩
    rw [if_pos hid]
    exact of_decide_eq_true hid
  · exact ⟨_, List.mem_append_right _ (List.mem_singleton.mpr rfl), rfl⟩

theorem insertAttachments_new {job : MailJob} {attachments : List ParsedAttachment}
    (hmsg : ∃ row ∈ db.messages, row.id = job.messageId)
    (hids : ∀ a ∈ attachments, ∀ row ∈ db.attachments, row.id ≠ a.attachmentId ∧
      (row.messageId = job.messageId → row.partIndex ≠ a.partIndex))
    (hnodup : (attachments.map ParsedAttachment.attachmentId).Nodup)
    (hparts : (attachments.map ParsedAttachment.partIndex).Nodup) :
    attachments.foldlM (fun db a => db.insertAttachment (attachmentRow job a)) db =
      .ok { db with attachments := db.attachments ++ attachments.map (attachmentRow job) } := by
  induction attachments generalizing db with
  | nil => simp [pure, Except.pure]
  | cons a rest ih =>
    obtain ⟨hid, hnodup⟩ := List.nodup_cons.mp hnodup
    obtain ⟨hpart, hparts⟩ := List.nodup_cons.mp hparts
    have hconflict : db.attachmentConflict (attachmentRow job a) = false := by
      unfold attachmentConflict
      rw [List.any_eq_false]
      intro row hrow hcond
      have hnew := hids a List.mem_cons_self row hrow
      rw [Bool.or_eq_true, Bool.and_eq_true] at hcond
      rcases hcond with hcond | ⟨hm, hp⟩
      · exact hnew.1 (of_decide_eq_true hcond)
      · exact hnew.2 (of_decide_eq_true hm) (of_decide_eq_true hp)
    have hparent : (db.messages.any fun m => m.id = (attachmentRow job a).messageId) = true := by
      obtain ⟨row, hrow, hid⟩ := hmsg
      exact List.any_eq_true.mpr ⟨row, hrow, decide_eq_true hid⟩
    rw [List.foldlM_cons]
    unfold insertAttachment
    rw [hconflict, hparent]
    refine (ih ?_ ?_ hnodup hparts).trans ?_
    · exact hmsg
    · intro a' ha' row hrow
      rcases List.mem_append.mp hrow with hrow | hrow
      · exact hids a' (List.mem_cons_of_mem _ ha') row hrow
      · rw [List.mem_singleton.mp hrow]
        refine ⟨fun heq => hid ?_, fun _ heq => hpart ?_⟩
        · exact List.mem_map.mpr ⟨a', ha', heq.symm⟩
        · exact List.mem_map.mpr ⟨a', ha', heq.symm⟩
    · simp

/-- The database before the recipient loop. -/
theorem stageJob (hdb : db.Consistent) {job : MailJob} {result : ParseResult}
    {rest : List (MailJob × ParseResult)} (hfresh : FreshBatch db ((job, result) :: rest)) :
    ∃ db₁ db₂, (upsertSession db job).insertMessage (messageRow job result) = .ok db₁ ∧
      insertAttachments db₁ job result = .ok db₂ ∧ db.SameMail db₂ ∧ db₂.Consistent ∧
      db₂.messages = db.messages ++ [messageRow job result] ∧
      db₂.attachments = db.attachments ++ (attachmentsOf result).map (attachmentRow job) := by
  obtain ⟨sessions, hsession⟩ := upsertSession_eq db job
  have hmessages : (upsertSession db job).messages = db.messages := by rw [hsession]
  have hattachments : (upsertSession db job).attachments = db.attachments := by rw [hsession]
  have hmsg := insertMessage_new (upsertSession db job) (messageRow job result)
    (by rw [hmessages]; exact hfresh.messages _ List.mem_cons_self) rfl (upsertSession_mem db job)
  have hnew : ∀ a ∈ attachmentsOf result, ∀ row ∈ (upsertSession db job).attachments,
      row.id ≠ a.attachmentId ∧ (row.messageId = job.messageId → row.partIndex ≠ a.partIndex) := by
    rw [hattachments]
    intro a ha row hrow
    refine ⟨hfresh.attachments _ List.mem_cons_self a ha row hrow, fun hid => ?_⟩
    -- an attachment of the message would need the message
    obtain ⟨m, hm, hmid⟩ := hdb.attachment_messages row hrow
    exact absurd (hmid.trans hid) (hfresh.messages _ List.mem_cons_self m hm).1
  have hids := List.Nodup.of_append_left (List.flatMap_cons ▸ hfresh.attachment_ids)
  have hatt : insertAttachments { upsertSession db job with
      messages := (upsertSession db job).messages ++ [messageRow job result] } job result = .ok _ :=
    insertAttachments_new ⟨_, List.mem_append_right _ (List.mem_singleton.mpr rfl), rfl⟩ hnew hids
      (hfresh.part_indexes _ List.mem_cons_self)
  have hedits : Edits (idRules (fun _ => True) fun _ => True) db _ :=
    ((Edits.single (upsertSession_edit job)).tail (.addMessage hmsg trivial)).trans
      (insertAttachments_edits hatt).1
  refine ⟨_, _, hmsg, hatt, ?_, Edits.consistent hdb hedits, ?_, ?_⟩
  · exact ((upsertSession_sameMail db job).trans (insertMessage_sameMail hmsg)).trans
      (insertAttachments_sameMail hatt)
  · rw [← hmessages]
  · rw [← hattachments]

theorem SameMail.managedAt_eq (h : db.SameMail db') (address : Text) :
    db'.managedAt address = db.managedAt address := by
  unfold managedAt mailboxAt? isCatchAll ownerRoot? domain?
  rw [h.mailboxes, h.domains]

/-- Before the loop, no recipient is stored. -/
theorem Stored.start (hdb : db.Consistent) (hdb' : db'.Consistent) (h : db.SameMail db')
    {messageId : Text} (hnew : ∀ m ∈ db.messages, m.id ≠ messageId)
    (hmsg : ∃ m ∈ db'.messages, m.id = messageId) : Stored db messageId [] db' where
  consistent := hdb'
  domains := h.domains
  message := hmsg
  managed := by
    intro address
    rw [SameMail.managedAt_eq h]
    simp
  addresses := List.nodup_nil
  active := by
    intro d hd hmsg
    rw [h.deliveries] at hd
    obtain ⟨m, hm, hid⟩ := hdb.delivery_messages d hd
    exact absurd (hid.trans hmsg) (hnew m hm)
  deliveries := by
    have hnil : (db'.deliveries.filter fun d => d.messageId = messageId) = [] := by
      rw [h.deliveries, List.filter_eq_nil_iff]
      intro d hd heq
      obtain ⟨m, hm, hid⟩ := hdb.delivery_messages d hd
      exact hnew m hm (hid.trans (of_decide_eq_true heq))
    rw [hnil]
    exact .nil

theorem mem_takenAddresses {job : MailJob} {address : Text} :
    address ∈ takenAddresses A db job ↔ ∃ p ∈ firstByKey [] (resolved A db job),
      p.2.managed = true ∧ p.2.addressCanonical = address := by
  unfold takenAddresses
  simp [and_assoc]

/-! ## Jobs and batches -/

/-- The ids of the remaining jobs are still new. -/
theorem FreshBatch.tail {job : MailJob} {result : ParseResult}
    {rest : List (MailJob × ParseResult)} (h : FreshBatch db ((job, result) :: rest))
    (hmessages : db'.messages = db.messages ++ [messageRow job result])
    (hattachments : db'.attachments =
      db.attachments ++ (attachmentsOf result).map (attachmentRow job))
    (hdeliveries : ∀ d ∈ db'.deliveries, (∃ r ∈ job.recipients, d.id = r.deliveryId) ∨
      ∃ e ∈ db.deliveries, e.id = d.id) : FreshBatch db' rest where
  messages := by
    intro x hx row hrow
    rw [hmessages] at hrow
    rcases List.mem_append.mp hrow with hrow | hrow
    · exact h.messages x (List.mem_cons_of_mem _ hx) row hrow
    · rw [List.mem_singleton.mp hrow]
      refine ⟨fun heq => ?_, fun heq => ?_⟩
      · exact (List.nodup_cons.mp h.message_ids).1 (List.mem_map.mpr ⟨x, hx, heq.symm⟩)
      · exact (List.nodup_cons.mp h.raw_paths).1 (List.mem_map.mpr ⟨x, hx, heq.symm⟩)
  attachments := by
    intro x hx a ha row hrow
    rw [hattachments] at hrow
    rcases List.mem_append.mp hrow with hrow | hrow
    · exact h.attachments x (List.mem_cons_of_mem _ hx) a ha row hrow
    · obtain ⟨a', ha', rfl⟩ := List.mem_map.mp hrow
      intro heq
      have hdisjoint := (List.nodup_append'.mp (List.flatMap_cons ▸ h.attachment_ids)).2.2
      refine hdisjoint (List.mem_map_of_mem ha') ?_
      rw [show a'.attachmentId = a.attachmentId from heq]
      exact List.mem_flatMap.mpr ⟨x, hx, List.mem_map_of_mem ha⟩
  deliveries := by
    intro x hx r hr d hd heq
    rcases hdeliveries d hd with ⟨r', hr', hid⟩ | ⟨e, he, hid⟩
    · have hdisjoint := (List.nodup_append'.mp (List.flatMap_cons ▸ h.delivery_ids)).2.2
      refine hdisjoint (List.mem_map_of_mem hr') ?_
      rw [← hid, heq]
      exact List.mem_flatMap.mpr ⟨x, hx, List.mem_map_of_mem hr⟩
    · exact h.deliveries x (List.mem_cons_of_mem _ hx) r hr e he (hid.trans heq)
  message_ids := (List.nodup_cons.mp h.message_ids).2
  raw_paths := (List.nodup_cons.mp h.raw_paths).2
  attachment_ids := List.Nodup.of_append_right (List.flatMap_cons ▸ h.attachment_ids)
  part_indexes := fun x hx => h.part_indexes x (List.mem_cons_of_mem _ hx)
  delivery_ids := List.Nodup.of_append_right (List.flatMap_cons ▸ h.delivery_ids)

/-- A job is stored as it has to be unless two of its recipients clash. -/
theorem storeJob_spec (hA : A.Lawful) (hdb : db.Consistent) (hnorm : db.RootsNormalized)
    {job : MailJob} {result : ParseResult} {rest : List (MailJob × ParseResult)}
    (hfresh : FreshBatch db ((job, result) :: rest))
    (hcached : ∀ r ∈ job.recipients, db.HasDomain r.domainMatch) :
    (Clear A db [] (firstByKey [] (resolved A db job)) →
      ∃ db', storeJob A db job result = .ok db' ∧ Delivered A db job db' ∧ db'.Consistent ∧
        db'.domains = db.domains ∧ FreshBatch db' rest ∧
        ∀ address, db'.managedAt address = true ↔
          db.managedAt address = true ∨ address ∈ takenAddresses A db job) ∧
    (¬Clear A db [] (firstByKey [] (resolved A db job)) →
      storeJob A db job result = .error .uniqueDelivery) := by
  obtain ⟨db₁, db₂, hmsg, hatt, hsame, hdb₂, hmessages, hattachments⟩ := stageJob hdb hfresh
  have hnew : ∀ m ∈ db.messages, m.id ≠ job.messageId := fun m hm =>
    (hfresh.messages _ List.mem_cons_self m hm).1
  have habsent : (db.messages.any fun m => m.id = job.messageId) = false := by simpa using hnew
  have hstored : Stored db job.messageId [] db₂ := by
    refine .start hdb hdb₂ hsame hnew ?_
    rw [hmessages]
    exact ⟨_, List.mem_append_right _ (List.mem_singleton.mpr rfl), rfl⟩
  have hids := List.Nodup.of_append_left (List.flatMap_cons ▸ hfresh.delivery_ids)
  obtain ⟨hok, herror⟩ := storeRecipients_spec hA hnorm [] hstored hcached
    (by rw [hsame.deliveries]; exact hfresh.deliveries _ List.mem_cons_self) hids
  unfold storeJob
  rw [habsent, hmsg]
  dsimp only
  rw [hatt]
  constructor
  · intro hclear
    obtain ⟨n, db₃, hloop, hstored₃, hdel⟩ := hok hclear
    obtain ⟨-, hmail⟩ := storeRecipients_edits hdb₂ rfl (fun _ hr => hr) (fun _ => True)
      (fun _ _ => trivial) hloop
    obtain ⟨metrics, hmetric⟩ := upsertMetric_eq db₃ (metricBucketTs job.receivedAt) 1 n
      (parseFailures result)
    have hsame₃ : db₃.SameMail { db₃ with metrics := metrics } :=
      hmetric ▸ upsertMetric_sameMail _ _ _ _ _
    have hedit : Edit (idRules (fun _ => True) fun _ => True) db₃ { db₃ with metrics := metrics } :=
      .bookkeeping
    refine ⟨{ db₃ with metrics := metrics }, ?_, ⟨?_, ?_⟩, hedit.consistent hstored₃.consistent,
      hstored₃.domains, ?_, ?_⟩
    · dsimp only
      rw [hloop]
      exact congrArg Except.ok hmetric
    · exact hstored₃.consistent.mailbox_addresses
    · refine hstored₃.deliveries.imp ?_
      rintro d p ⟨hid, domainId, b, hb, hbid, haddr, -⟩
      exact ⟨hid, b, hb, hbid, haddr⟩
    · refine hfresh.tail (hmail.messages.trans hmessages) (hmail.attachments.trans hattachments) ?_
      rw [hsame.deliveries] at hdel
      exact hdel
    · intro address
      rw [SameMail.managedAt_eq hsame₃, hstored₃.managed, mem_takenAddresses]
      rfl
  · intro hclash
    dsimp only
    rw [herror hclash]
    rfl

theorem clash_congr (h : db'.domains = db.domains) {held held' : Text → Prop}
    (hheld : ∀ a, held' a ↔ held a) (p q : RecipientDelivery × DomainMatch) :
    Clash A db' held' p q ↔ Clash A db held p q := by
  unfold Clash
  rw [oldCatchAllAddress_congr h, hheld]

theorem resolved_congr (h : db'.domains = db.domains) (job : MailJob) :
    resolved A db' job = resolved A db job := by
  unfold resolved
  simp only [currentMatch_congr h]

/-- The condition on a batch, from any state the batch can be in. -/
theorem commitsEach_iff {start : Db} (hA : A.Lawful) (hnorm : start.RootsNormalized)
    {jobs : List (MailJob × ParseResult)} {taken : List Text} (hdb : db.Consistent)
    (hdomains : db.domains = start.domains)
    (hheld : ∀ a, db.managedAt a = true ↔ start.managedAt a = true ∨ a ∈ taken)
    (hfresh : FreshBatch db jobs)
    (hcached : ∀ x ∈ jobs, ∀ r ∈ x.1.recipients, start.HasDomain r.domainMatch) :
    CommitsEach A db jobs ↔ BatchClear A start taken jobs := by
  induction jobs generalizing db taken with
  | nil => exact Iff.rfl
  | cons x rest ih =>
    obtain ⟨job, result⟩ := x
    have hnorm' : db.RootsNormalized := by
      unfold RootsNormalized
      rw [hdomains]
      exact hnorm
    have hcached' : ∀ r ∈ job.recipients, db.HasDomain r.domainMatch := by
      unfold HasDomain
      rw [hdomains]
      exact hcached _ List.mem_cons_self
    obtain ⟨hok, herror⟩ := storeJob_spec hA hdb hnorm' hfresh hcached'
    have hclear : Clear A db [] (firstByKey [] (resolved A db job)) ↔
        (firstByKey [] (resolved A start job)).Pairwise fun p q =>
          ¬Clash A start (fun a => start.managedAt a = true ∨ a ∈ taken) p q := by
      unfold Clear
      simp only [List.not_mem_nil, false_implies, implies_true, true_and,
        resolved_congr hdomains, clash_congr hdomains hheld]
    have htaken : takenAddresses A db job = takenAddresses A start job := by
      unfold takenAddresses
      rw [resolved_congr hdomains]
    unfold CommitsEach BatchClear
    rw [← hclear]
    constructor
    · rintro ⟨db', hstore, -, hrest⟩
      have hfree : Clear A db [] (firstByKey [] (resolved A db job)) := by
        by_contra hnot
        rw [herror hnot] at hstore
        cases hstore
      obtain ⟨db'', hstore', -, hdb'', hdomains'', hfresh'', hheld''⟩ := hok hfree
      rw [hstore] at hstore'
      cases hstore'
      refine ⟨hfree, (ih hdb'' (hdomains''.trans hdomains) ?_ hfresh'' ?_).mp hrest⟩
      · intro a
        rw [hheld'', hheld, htaken, List.mem_append]
        tauto
      · exact fun y hy => hcached y (List.mem_cons_of_mem _ hy)
    · rintro ⟨hfree, hrest⟩
      obtain ⟨db', hstore, hdelivered, hdb', hdomains', hfresh', hheld'⟩ := hok hfree
      refine ⟨db', hstore, hdelivered, (ih hdb' (hdomains'.trans hdomains) ?_ hfresh' ?_).mpr
        hrest⟩
      · intro a
        rw [hheld', hheld, htaken, List.mem_append]
        tauto
      · exact fun y hy => hcached y (List.mem_cons_of_mem _ hy)

/-- A batch whose jobs are all stored is stored. -/
theorem CommitsEach.writeSqliteRecords {jobs : List (MailJob × ParseResult)}
    (h : CommitsEach A db jobs) : ∃ db', writeSqliteRecords A db jobs = .ok db' := by
  induction jobs generalizing db with
  | nil => exact ⟨db, rfl⟩
  | cons x rest ih =>
    obtain ⟨job, result⟩ := x
    obtain ⟨db', hstore, -, hrest⟩ := h
    unfold BatchWriter.writeSqliteRecords
    rw [hstore]
    exact ih hrest

/-- A batch of new jobs for domains that are still there is stored, each job with one delivery for
    each of its keys, exactly when no two recipients of a job clash. -/
theorem commit_integrity_iff (hA : A.Lawful) (hdb : db.Consistent) (hnorm : db.RootsNormalized)
    {jobs : List (MailJob × ParseResult)} (hfresh : FreshBatch db jobs)
    (hcached : ∀ x ∈ jobs, ∀ r ∈ x.1.recipients, db.HasDomain r.domainMatch) :
    ((∃ db', writeSqliteRecords A db jobs = .ok db') ∧ CommitsEach A db jobs) ↔
      BatchClear A db [] jobs := by
  rw [← commitsEach_iff hA hnorm hdb rfl (fun a => by simp) hfresh hcached]
  exact ⟨fun h => h.2, fun h => ⟨h.writeSqliteRecords, h⟩⟩

/-- A database with one managed domain. -/
def managedDb : Db := empty.run .ascii [.createDomain "example.com".toList "r1".toList .unset]

/-- A message for two addresses of it. -/
def twoRecipients : MailJob × ParseResult :=
  sampleJob "m1" 10
    [sampleRecipient "d1" (sampleMatch 1 "example.com" "u" "example.com"),
     sampleRecipient "d2" (sampleMatch 1 "example.com" "v" "example.com")]

theorem twoRecipients_fresh : FreshBatch managedDb [twoRecipients] := by
  constructor <;> decide +kernel

/-- Both recipients get a delivery. -/
theorem commit_integrity_two_recipients :
    firstByKey [] (resolved (cppAddressOps .asciiOnly) managedDb twoRecipients.1) =
        resolved (cppAddressOps .asciiOnly) managedDb twoRecipients.1 ∧
      ((∃ db', writeSqliteRecords (cppAddressOps .asciiOnly) managedDb [twoRecipients] = .ok db') ∧
        CommitsEach (cppAddressOps .asciiOnly) managedDb [twoRecipients]) := by
  have hnorm : managedDb.RootsNormalized :=
    rootsNormalized_of_fixed (cppAddressOps_lawful .asciiOnly) (by decide +kernel)
  refine ⟨by decide +kernel, ?_⟩
  refine (commit_integrity_iff (cppAddressOps_lawful .asciiOnly)
    (run_consistent empty_consistent _) hnorm twoRecipients_fresh ?_).mpr ⟨?_, trivial⟩
  · unfold HasDomain
    decide +kernel
  · decide +kernel

/-- A library that lower-cases `Ⱥ`, which takes one more byte then. -/
def latinExtended : UnicodeOps where
  toLower t := t.map fun c => if c = 'Ⱥ' then 'ⱥ' else asciiLowerChar c
  forbidden _ := false
  idnToAscii _ := none

/-- A domain that keeps the case of local parts and drops what follows a `+`. -/
def acceptingDb : Db :=
  empty.run ⟨latinExtended, latinExtended⟩
    [.createDomain "example.com".toList "r1".toList
      { DomainPayload.unset with
        plusAddressingMode := some .strip
        localPartCaseSensitive := some true }]

/-- The same, after a subdomain with the default rules has been added. -/
def committingDb : Db :=
  acceptingDb.run ⟨latinExtended, latinExtended⟩
    [.createDomain "sub.example.com".toList "r2".toList .unset]

/-- An address that is too long for the default rules once it is lower-cased. -/
def longAddress : Text := "x+".toList ++ List.replicate 31 'Ⱥ' ++ "@sub.example.com".toList

/-- A recipient as the rules of `acceptingDb` match it. -/
def acceptedRecipient (deliveryId localPart : String) (rcptTo : Text) : RecipientDelivery :=
  { deliveryId := deliveryId.toList
    rcptTo := rcptTo
    domainMatch :=
      { sampleMatch 1 "example.com" localPart "sub.example.com" with
        localPart := rcptTo.takeWhile (· != '@') }
    domainPolicy := some { defaultPolicy "example.com".toList with
      plusAddressingMode := .strip
      localPartCaseSensitive := true } }

def collidingJob : MailJob × ParseResult :=
  sampleJob "m1" 10
    [acceptedRecipient "d1" "x" longAddress,
     acceptedRecipient "d2" "X" "X@sub.example.com".toList]

/-- Two addresses that are different under the rules they were accepted with are one under the rules
    of the commit, for two domains, and the second delivery violates the unique key. -/
theorem commit_integrity_collision :
    (∀ r ∈ collidingJob.1.recipients,
      (DomainMatcher.mk (acceptingDb.domains.map DomainRow.rule)).matchAddress
        (cppAddressOps latinExtended) r.rcptTo = some r.domainMatch) ∧
      (collidingJob.1.recipients.map fun r => r.domainMatch.addressCanonical).Nodup ∧
      (∀ r ∈ collidingJob.1.recipients, committingDb.HasDomain r.domainMatch) ∧
      committingDb.messages = [] ∧
      writeSqliteRecords (cppAddressOps latinExtended) committingDb [collidingJob] =
        .error .uniqueDelivery := by
  unfold HasDomain
  decide +kernel

end BatchWriter
end RapidInbox

import RapidInbox.Store.BulkDelete

/-!
# Which deliveries a bulk-delete job reaches

A job works through its scope page by page, so as long as an active delivery of the scope stays in
the mailbox with its generation, the job will delete it before it is complete.  A merge takes
deliveries out of the scope: it stamps them with another generation, and it deletes the job with the
source mailbox.
-/

namespace RapidInbox

open Table Relation

/-- Every delivery of a set is accounted for: it is still to be deleted by the job, which is
    incomplete, or it is not active. -/
def Db.ScopeCovered (db : Db) (jobId : Text) (scope : Text → Prop) : Prop :=
  (∃ j ∈ db.bulkDeleteJobs, j.id = jobId ∧ j.incomplete ∧
    ∀ d ∈ db.deliveries, scope d.id → d.status = .active → inJobWindow j d) ∨
  ∀ d ∈ db.deliveries, scope d.id → d.status ≠ .active

/-- The merges made between two databases stamp no delivery of a set. -/
def Db.MergesSpare (db db' : Db) (scope : Text → Prop) : Prop :=
  ∀ call ∈ db'.merges.drop db.merges.length, ∀ id ∈ call.stamped, ¬scope id

namespace Db

variable {rules : EditRules} {db db' : Db} {jobId : Text} {scope : Text → Prop}

/-- Deleting rows, for good or softly, keeps a scope covered. -/
theorem ScopeCovered.of_mem (h : db.ScopeCovered jobId scope)
    (hjobs : db'.bulkDeleteJobs = db.bulkDeleteJobs)
    (hrows : ∀ d ∈ db'.deliveries, scope d.id → d.status = .active → d ∈ db.deliveries) :
    db'.ScopeCovered jobId scope := by
  rcases h with ⟨j, hj, hid, hinc, hcover⟩ | hnone
  · refine .inl ⟨j, hjobs ▸ hj, hid, hinc, ?_⟩
    intro d hd hscope hactive
    exact hcover d (hrows d hd hscope hactive) hscope hactive
  · refine .inr ?_
    intro d hd hscope hactive
    exact hnone d (hrows d hd hscope hactive) hscope hactive

theorem inJobWindow_iff {j : BulkDeleteJob} {d : DeliveryRow} :
    inJobWindow j d = true ↔
      d.InScope j.mailboxId j.targetGeneration ∧ j.cursorDeliveryRowid < d.rowid ∧
        d.rowid ≤ j.maxDeliveryRowid := by
  simp only [inJobWindow, Bool.and_eq_true, decide_eq_true_iff]
  constructor
  · rintro ⟨⟨⟨⟨hbox, hactive⟩, hgen⟩, hlow⟩, hhigh⟩
    exact ⟨⟨hbox, hactive, hgen⟩, hlow, hhigh⟩
  · rintro ⟨⟨hbox, hactive, hgen⟩, hlow, hhigh⟩
    exact ⟨⟨⟨⟨hbox, hactive⟩, hgen⟩, hlow⟩, hhigh⟩

/-- A delivery of the window that the page misses comes after a page that is full. -/
theorem after_full_page (hdb : db.Consistent) {j : BulkDeleteJob} {batchSize : Nat} {d : DeliveryRow}
    (hd : d ∈ db.deliveries) (hwindow : inJobWindow j d)
    (hpage : d.rowid ∉ db.bulkDeletePage j batchSize) :
    (db.bulkDeletePage j batchSize).length = batchSize ∧
      (db.bulkDeletePage j batchSize).foldr max 0 < d.rowid := by
  have hmiss : d ∉ (db.deliveries.filter (inJobWindow j)).take batchSize :=
    fun hmem => hpage (List.mem_map_of_mem hmem)
  obtain ⟨hlen, hlt⟩ := take_of_not_mem (hdb.delivery_rowids.filter _)
    (List.mem_filter.mpr ⟨hd, hwindow⟩) hmiss
  refine ⟨by rw [bulkDeletePage, List.length_map, hlen], ?_⟩
  refine foldr_max_lt (hdb.delivery_rowids_pos d hd) ?_
  intro n hn
  obtain ⟨e, he, rfl⟩ := List.mem_map.mp hn
  exact hlt e he

/-- What a batch of a job leaves of its window comes after the new cursor, and the page was full. -/
theorem after_batch (hdb : db.Consistent) {j : BulkDeleteJob} {batchSize : Nat} {now : Timestamp}
    {d : DeliveryRow} (hd : d ∈ (db.advanceBulkDeleteJob j batchSize now).deliveries)
    (hactive : d.status = .active) (hcover : d ∈ db.deliveries → inJobWindow j d) :
    inJobWindow j d ∧ (db.bulkDeletePage j batchSize).length = batchSize ∧
      (1 ≤ batchSize → nextCursor j (db.bulkDeletePage j batchSize) < d.rowid) := by
  rw [advanceBulkDeleteJob_deliveries] at hd
  obtain ⟨hmem, hnot⟩ := mem_softDeleteWhere hd hactive
  have hwindow := hcover hmem
  have hmiss : d.rowid ∉ db.bulkDeletePage j batchSize := by
    intro hin
    have hs := (inJobWindow_iff.mp hwindow).1
    simp [inPage, hs.mailbox, hs.active, hs.generation, hin] at hnot
  obtain ⟨hlen, hlt⟩ := after_full_page hdb hmem hwindow hmiss
  refine ⟨hwindow, hlen, ?_⟩
  intro hpos
  have hne : (db.bulkDeletePage j batchSize).isEmpty = false := by
    rw [List.isEmpty_eq_false_iff, ← List.length_pos_iff]
    omega
  rw [nextCursor, hne]
  exact hlt

/-- A batch that completes a job leaves nothing of its window. -/
theorem not_active_of_completes (hdb : db.Consistent) {j : BulkDeleteJob} {batchSize : Nat}
    {now : Timestamp} {d : DeliveryRow} (hpos : 1 ≤ batchSize)
    (hd : d ∈ (db.advanceBulkDeleteJob j batchSize now).deliveries)
    (hcover : d.status = .active → d ∈ db.deliveries → inJobWindow j d)
    (hcomplete : pageCompletes j (db.bulkDeletePage j batchSize) batchSize) : d.status ≠ .active := by
  intro hactive
  obtain ⟨hwindow, hlen, hlt⟩ := after_batch hdb hd hactive (hcover hactive)
  have hcursor := hlt hpos
  have hmax := (inJobWindow_iff.mp hwindow).2.2
  simp only [pageCompletes, Bool.or_eq_true, decide_eq_true_iff] at hcomplete
  omega

theorem advanceBulkDeleteJob_jobs (j : BulkDeleteJob) (batchSize : Nat) (now : Timestamp) :
    (db.advanceBulkDeleteJob j batchSize now).bulkDeleteJobs =
      updateWhere (fun k => k.id = j.id)
        (fun k =>
          { k with
            status := if pageCompletes j (db.bulkDeletePage j batchSize) batchSize then .succeeded
              else .running
            cursorDeliveryRowid := nextCursor j (db.bulkDeletePage j batchSize)
            deletedCount := j.deletedCount +
              db.deliveries.countP (inPage j (db.bulkDeletePage j batchSize)) })
        db.bulkDeleteJobs := by
  unfold advanceBulkDeleteJob
  dsimp only
  split
  · rfl
  · rfl

/-- A batch of the job deletes its page; what is left is after the new cursor, and a batch that
    completes the job leaves nothing. -/
theorem advance_covered (hdb : db.Consistent) {j : BulkDeleteJob} {batchSize : Nat}
    {now : Timestamp} (hpos : 1 ≤ batchSize) (hj : j ∈ db.bulkDeleteJobs) (hid : j.id = jobId)
    (hcover : ∀ d ∈ db.deliveries, scope d.id → d.status = .active → inJobWindow j d) :
    (db.advanceBulkDeleteJob j batchSize now).ScopeCovered jobId scope := by
  cases hcomplete : pageCompletes j (db.bulkDeletePage j batchSize) batchSize with
  | true =>
    refine .inr ?_
    intro d hd hscope
    exact not_active_of_completes hdb hpos hd (fun hactive hmem => hcover d hmem hscope hactive)
      hcomplete
  | false =>
    refine .inl ⟨{ j with
      status := .running
      cursorDeliveryRowid := nextCursor j (db.bulkDeletePage j batchSize)
      deletedCount := j.deletedCount +
        db.deliveries.countP (inPage j (db.bulkDeletePage j batchSize)) }, ?_, hid, rfl, ?_⟩
    · rw [advanceBulkDeleteJob_jobs, hcomplete]
      exact mem_updateWhere.mpr ⟨j, hj, by simp⟩
    · intro d hd hscope hactive
      obtain ⟨hwindow, -, hlt⟩ := after_batch hdb hd hactive fun hmem => hcover d hmem hscope hactive
      obtain ⟨hs, -, hmax⟩ := inJobWindow_iff.mp hwindow
      exact inJobWindow_iff.mpr ⟨⟨hs.mailbox, hs.active, hs.generation⟩, hlt hpos, hmax⟩

/-- A batch of another job. -/
theorem advance_other_covered {other : BulkDeleteJob} {batchSize : Nat} {now : Timestamp}
    (hne : other.id ≠ jobId) (h : db.ScopeCovered jobId scope) :
    (db.advanceBulkDeleteJob other batchSize now).ScopeCovered jobId scope := by
  have hrows (d : DeliveryRow)
      (hd : d ∈ (db.advanceBulkDeleteJob other batchSize now).deliveries)
      (hactive : d.status = .active) : d ∈ db.deliveries := by
    rw [advanceBulkDeleteJob_deliveries] at hd
    exact (mem_softDeleteWhere hd hactive).1
  rcases h with ⟨j, hj, hid, hinc, hcover⟩ | hnone
  · refine .inl ⟨j, ?_, hid, hinc, fun d hd hs ha => hcover d (hrows d hd ha) hs ha⟩
    have hkeep {f : BulkDeleteJob → BulkDeleteJob} {rows : List BulkDeleteJob} (hj : j ∈ rows) :
        j ∈ updateWhere (fun k => k.id = other.id) f rows := by
      refine mem_updateWhere.mpr ⟨j, hj, ?_⟩
      have hother : j.id ≠ other.id := fun heq => hne (heq.symm.trans hid)
      simp [hother]
    unfold advanceBulkDeleteJob
    dsimp only
    split
    · exact hkeep hj
    · exact hkeep hj
  · exact .inr fun d hd hs ha => hnone d (hrows d hd ha) hs ha

/-- A merge keeps a scope covered if it stamps no delivery of it that is active. -/
theorem mergeDeliveries_covered {read : Text → Text} {source target : Nat}
    (hspare : db.MergesSpare (db.mergeDeliveries read source target) scope)
    (h : db.ScopeCovered jobId scope) :
    (db.mergeDeliveries read source target).ScopeCovered jobId scope := by
  refine h.of_mem rfl ?_
  intro d' hd' hscope hactive
  obtain ⟨d, hd, hrow⟩ := List.mem_filterMap.mp hd'
  have hstamped (hmoved : d.mailboxId = source ∨
      d.mailboxId = target ∧ (db.deliveryOf? d.messageId source).isSome) : False := by
    have hcall : db.isStamped read source target d = true := by
      simp only [isStamped, hrow, Bool.and_eq_true, Bool.or_eq_true, decide_eq_true_iff]
      exact ⟨hactive, hmoved⟩
    have hlogged : d.id ∈ (db.deliveries.filter (db.isStamped read source target)).map DeliveryRow.id :=
      List.mem_map_of_mem (List.mem_filter.mpr ⟨hd, hcall⟩)
    rw [(mergeRow_identity hrow).2.1] at hscope
    exact hspare ⟨source, target, _⟩ (by simp [mergeDeliveries]) d.id hlogged hscope
  obtain ⟨ht, copy, hcopy, -⟩ | ⟨hs, -, -, -⟩ | ⟨-, -, rfl⟩ := mergeRow_cases hrow
  · exact (hstamped (.inr ⟨ht, by rw [hcopy]; rfl⟩)).elim
  · exact (hstamped (.inl hs)).elim
  · exact hd

/-- Deleting mailboxes deletes their jobs, but only when no delivery is left in them. -/
theorem dropMailboxes_covered {p : Nat → Bool} (hp : ∀ d ∈ db.deliveries, p d.mailboxId)
    (h : db.ScopeCovered jobId scope) :
    ScopeCovered
      { db with
        mailboxes := db.mailboxes.filter fun b => p b.id
        bulkDeleteJobs := db.bulkDeleteJobs.filter fun j => p j.mailboxId } jobId scope := by
  rcases h with ⟨j, hj, hid, hinc, hcover⟩ | hnone
  · cases hkept : p j.mailboxId with
    | true => exact .inl ⟨j, List.mem_filter.mpr ⟨hj, hkept⟩, hid, hinc, hcover⟩
    | false =>
      refine .inr ?_
      intro d hd hscope hactive
      have hbox := (inJobWindow_iff.mp (hcover d hd hscope hactive)).1.mailbox
      have := hp d hd
      rw [hbox, hkept] at this
      cases this
  · exact .inr hnone

/-- Creating another job drops finished jobs only. -/
theorem startBulkDeleteJob_covered {newId : Text} {mailbox : MailboxRow} {deletedAt : Timestamp}
    (h : db.ScopeCovered jobId scope) :
    (db.startBulkDeleteJob newId mailbox deletedAt).ScopeCovered jobId scope := by
  rcases h with ⟨j, hj, hid, hinc, hcover⟩ | hnone
  · refine .inl ⟨j, List.mem_append_left _ (List.mem_filter.mpr ⟨hj, ?_⟩), hid, hinc, hcover⟩
    rw [BulkDeleteJob.incomplete, bne_iff_ne] at hinc
    simp [hinc]
  · exact .inr hnone

end Db

open Db

variable {rules : EditRules} {db db' : Db} {jobId : Text} {scope : Text → Prop}

theorem Edit.covered (hdb : db.Consistent) (hnew : ∀ id messageId, rules.newMail (.delivery id messageId) → ¬scope id)
    (hedit : Edit rules db db') (hspare : db.MergesSpare db' scope)
    (h : db.ScopeCovered jobId scope) : db'.ScopeCovered jobId scope := by
  cases hedit with
  | addMailbox hins =>
    obtain ⟨-, -, rfl, rfl⟩ := insertMailbox_ok hins
    exact h.of_mem rfl fun d hd _ _ => hd
  | setIdentity _ _ hupd =>
    obtain ⟨-, -, rfl⟩ := updateMailboxIdentity_ok hupd
    exact h.of_mem rfl fun d hd _ _ => hd
  | setColumns _ => exact h.of_mem rfl fun d hd _ _ => hd
  | mergeDeliveries _ _ => exact mergeDeliveries_covered hspare h
  | dropMailboxes hp => exact dropMailboxes_covered hp h
  | addDelivery hid _ _ =>
    refine h.of_mem rfl ?_
    intro d hd hscope _
    rcases List.mem_append.mp hd with hd | hd
    · exact hd
    · rw [List.mem_singleton.mp hd] at hscope
      exact absurd hscope (hnew _ _ hid)
  | softDelete => exact h.of_mem rfl fun d hd _ hactive => (mem_softDeleteWhere hd hactive).1
  | dropDeliveries => exact h.of_mem rfl fun d hd _ _ => List.mem_of_mem_filter hd
  | dropMessages => exact h.of_mem rfl fun d hd _ _ => List.mem_of_mem_filter hd
  | createJob _ hjob =>
    obtain ⟨mailbox, -, -, ⟨job, -, -, -, -, rfl⟩ | ⟨-, -, -, rfl⟩⟩ :=
      createOrResumeBulkDeleteJob_ok hjob
    · exact h
    · exact startBulkDeleteJob_covered h
  | processJob hjob =>
    obtain ⟨job, hmem, -, hpos, ⟨-, rfl⟩ | ⟨-, rfl⟩⟩ := processBulkDeleteJobBatch_ok hjob
    · exact h
    · by_cases hid : job.id = jobId
      · rcases h with ⟨j, hj, hjid, -, hcover⟩ | hnone
        · rw [hdb.job_ids.eq_of_mem hmem hj (hid.trans hjid.symm)]
          exact advance_covered hdb hpos hj hjid hcover
        · refine .inr ?_
          intro d hd hscope hactive
          rw [advanceBulkDeleteJob_deliveries] at hd
          exact hnone d (mem_softDeleteWhere hd hactive).1 hscope hactive
      · exact advance_other_covered hid h
  | failJob =>
    rcases h with ⟨j, hj, hid, hinc, hcover⟩ | hnone
    · refine .inl ⟨_, mem_updateWhere.mpr ⟨j, hj, rfl⟩, ?_⟩
      rw [BulkDeleteJob.incomplete, bne_iff_ne] at hinc
      split
      · exact ⟨hid, rfl, hcover⟩
      · exact ⟨hid, by simp [BulkDeleteJob.incomplete, hinc], hcover⟩
    · exact .inr hnone
  | setDomains _ _ _ _ => exact h.of_mem rfl fun d hd _ _ => hd
  | addMessage hmsg _ =>
    obtain ⟨-, rfl⟩ := insertMessage_ok hmsg
    exact h.of_mem rfl fun d hd _ _ => hd
  | addAttachment hatt =>
    obtain ⟨-, -, rfl⟩ := insertAttachment_ok hatt
    exact h.of_mem rfl fun d hd _ _ => hd
  | bookkeeping => exact h.of_mem rfl fun d hd _ _ => hd

/-- The log of merges only grows. -/
theorem Edit.merges_prefix (hedit : Edit rules db db') : db.merges <+: db'.merges := by
  cases hedit with
  | addMailbox hins =>
    obtain ⟨-, -, rfl, rfl⟩ := insertMailbox_ok hins
    exact List.prefix_rfl
  | setIdentity _ _ hupd =>
    obtain ⟨-, -, rfl⟩ := updateMailboxIdentity_ok hupd
    exact List.prefix_rfl
  | mergeDeliveries _ _ => exact List.prefix_append _ _
  | createJob _ hjob =>
    obtain ⟨mailbox, -, -, ⟨job, -, -, -, -, rfl⟩ | ⟨-, -, -, rfl⟩⟩ :=
      createOrResumeBulkDeleteJob_ok hjob
    · exact List.prefix_rfl
    · exact List.prefix_rfl
  | processJob hjob =>
    obtain ⟨job, -, -, -, ⟨-, rfl⟩ | ⟨-, rfl⟩⟩ := processBulkDeleteJobBatch_ok hjob
    · exact List.prefix_rfl
    · unfold advanceBulkDeleteJob
      dsimp only
      split
      · exact List.prefix_rfl
      · exact List.prefix_rfl
  | addMessage hmsg _ =>
    obtain ⟨-, rfl⟩ := insertMessage_ok hmsg
    exact List.prefix_rfl
  | addAttachment hatt =>
    obtain ⟨-, -, rfl⟩ := insertAttachment_ok hatt
    exact List.prefix_rfl
  | setColumns _ => exact List.prefix_rfl
  | dropMailboxes _ => exact List.prefix_rfl
  | addDelivery _ _ _ => exact List.prefix_rfl
  | softDelete => exact List.prefix_rfl
  | dropDeliveries => exact List.prefix_rfl
  | dropMessages => exact List.prefix_rfl
  | failJob => exact List.prefix_rfl
  | setDomains _ _ _ _ => exact List.prefix_rfl
  | bookkeeping => exact List.prefix_rfl

theorem Edits.merges_prefix (hedits : Edits rules db db') : db.merges <+: db'.merges := by
  induction hedits with
  | refl => exact List.prefix_rfl
  | tail _ hedit ih => exact ih.trans hedit.merges_prefix

/-- Both halves of a chain spare what the chain spares. -/
theorem Db.MergesSpare.split {mid : Db} (h : db.MergesSpare db' scope)
    (hmid : db.merges <+: mid.merges) (hlast : mid.merges <+: db'.merges) :
    db.MergesSpare mid scope ∧ mid.MergesSpare db' scope := by
  constructor
  · intro call hcall
    obtain ⟨calls, hcalls⟩ := hlast
    refine h call ?_
    rw [← hcalls, List.drop_append_of_le_length hmid.length_le]
    exact List.mem_append_left _ hcall
  · intro call hcall
    exact h call ((List.drop_subset_drop_left _ hmid.length_le) hcall)

theorem Edits.covered (hdb : db.Consistent) (hnew : ∀ id messageId, rules.newMail (.delivery id messageId) → ¬scope id)
    (hedits : Edits rules db db') (hspare : db.MergesSpare db' scope)
    (h : db.ScopeCovered jobId scope) : db'.ScopeCovered jobId scope := by
  induction hedits with
  | refl => exact h
  | tail hchain hedit ih =>
    obtain ⟨hfirst, hlast⟩ := hspare.split (Edits.merges_prefix hchain) hedit.merges_prefix
    exact hedit.covered (Edits.consistent hdb hchain) hnew hlast (ih hfirst)

/-! ## Jobs in a history -/

namespace Db

/-- The deliveries that a job over the current generation of a mailbox covers. -/
def JobScope (db : Db) (mailbox : MailboxRow) (id : Text) : Prop :=
  ∃ d ∈ db.deliveries, d.InScope mailbox.id mailbox.bulkDeleteGeneration ∧ d.id = id

instance (db : Db) (mailbox : MailboxRow) (id : Text) : Decidable (db.JobScope mailbox id) :=
  inferInstanceAs (Decidable (∃ d ∈ db.deliveries, _))

/-- An operation draws no id of the set for a new delivery, and no merge it makes
    stamps an active delivery of the set. -/
def SparesScope (E : StoreEnv) (scope : Text → Prop) (db : Db) (op : StoreOp) : Prop :=
  (∀ id, op.InsertsDelivery id → ¬scope id) ∧ db.MergesSpare (db.exec E op) scope

theorem run_covered {E : StoreEnv} (hdb : db.Consistent) {ops : List StoreOp}
    (hspare : Throughout E (SparesScope E scope) db ops) (h : db.ScopeCovered jobId scope) :
    (db.run E ops).ScopeCovered jobId scope := by
  have hstep (s : Db) (op : StoreOp) (hs : s.Consistent ∧ s.ScopeCovered jobId scope)
      (hspare : SparesScope E scope s op) :
      (s.exec E op).Consistent ∧ (s.exec E op).ScopeCovered jobId scope :=
    have hnew (id messageId : Text) (hid : op.InsertsMail (.delivery id messageId)) : ¬scope id :=
      hspare.1 id hid.insertsDelivery
    ⟨exec_consistent hs.1 op, Edits.covered hs.1 hnew (exec_edits hs.1 op) hspare.2 hs.2⟩
  exact (hspare.invariant hstep ⟨hdb, h⟩ ops [] (List.append_nil ops).symm).2

/-- A new job covers its scope: the frontier is the largest rowid in it. -/
theorem newBulkDeleteJob_window (hdb : db.Consistent) {jobId : Text} {mailbox : MailboxRow}
    {deletedAt : Timestamp} {d : DeliveryRow} (hd : d ∈ db.deliveries)
    (hscope : d.InScope mailbox.id mailbox.bulkDeleteGeneration) :
    inJobWindow (db.newBulkDeleteJob jobId mailbox deletedAt) d := by
  refine inJobWindow_iff.mpr ⟨hscope, hdb.delivery_rowids_pos d hd, ?_⟩
  refine le_foldr_max (List.mem_map_of_mem (List.mem_filter.mpr ⟨hd, ?_⟩))
  simp [hscope.mailbox, hscope.active, hscope.generation]

/-- A new job covers its scope. -/
theorem startBulkDeleteJob_covers (hdb : db.Consistent) (mailbox : MailboxRow)
    (deletedAt : Timestamp) :
    (db.startBulkDeleteJob jobId mailbox deletedAt).ScopeCovered jobId (db.JobScope mailbox) := by
  refine .inl ⟨_, List.mem_append_right _ (List.mem_singleton.mpr rfl), rfl, rfl, ?_⟩
  rintro d hd ⟨e, he, hscope, hid⟩ -
  rw [hdb.delivery_ids.eq_of_mem he hd hid] at hscope
  exact newBulkDeleteJob_window hdb hd hscope

/-- In every history after the creation of a job whose operations spare its scope: once the job is
    not incomplete any more, no delivery of the scope is active. -/
theorem bulk_delete_complete {E : StoreEnv} (hdb : db.Consistent) {mailbox : MailboxRow}
    {deletedAt : Timestamp} {created : Db} (hmailbox : mailbox ∈ db.mailboxes)
    (hidle : db.hasIncompleteJob mailbox.id = false)
    (hcreate : db.createOrResumeBulkDeleteJob jobId mailbox.id deletedAt = .ok (jobId, created))
    {ops : List StoreOp} (hspare : Throughout E (SparesScope E (db.JobScope mailbox)) created ops)
    (hdone : ∀ j ∈ (created.run E ops).bulkDeleteJobs, j.id = jobId → j.incomplete = false) :
    ∀ d ∈ (created.run E ops).deliveries, db.JobScope mailbox d.id → d.status ≠ .active := by
  have hstarted : created = db.startBulkDeleteJob jobId mailbox deletedAt := by
    obtain ⟨mailbox', hmem, hid, ⟨job, hjob, hbox, hinc, -, -⟩ | ⟨-, -, -, rfl⟩⟩ :=
      createOrResumeBulkDeleteJob_ok hcreate
    · rw [hasIncompleteJob, List.any_eq_false] at hidle
      exact absurd (by simp [hbox, hinc]) (hidle job hjob)
    · rw [hdb.mailbox_ids.eq_of_mem hmem hmailbox hid]
  have hedit : Edit (idRules (fun _ => True) fun _ => True) db created := .createJob trivial hcreate
  have hconsistent := hedit.consistent hdb
  have hcovered := run_covered hconsistent hspare
    (hstarted ▸ startBulkDeleteJob_covers hdb mailbox deletedAt)
  rcases hcovered with ⟨j, hj, hid, hinc, -⟩ | hnone
  · rw [hdone j hj hid] at hinc
    cases hinc
  · exact hnone

/-- A catch-all mailbox with one message, whose deletion has been requested. -/
def deletionRequested : List StoreOp :=
  [.syncCatchAll true false false none 1000,
   .commit [sampleJob "m1" 10 [sampleRecipient "d1" (sampleMatch 1 "*" "u+t" "example.com")]],
   .createBulkDelete "j1".toList 1 20]

/-- The mailbox whose deletion is requested. -/
def deletionMailbox : MailboxRow :=
  { id := 1
    domainId := 1
    localPartCanonical := "u+t".toList
    rcptDomainAscii := "example.com".toList
    addressCanonical := "u+t@example.com".toList
    addressDisplay := "u+t@example.com".toList
    firstSeenAt := 10
    lastSeenAt := 10
    latestMessageAt := some 10
    messageCount := 1
    publicEnabled := true
    isHidden := false
    notes := none
    bulkDeleteGeneration := 0 }

/-- The job runs after a second message has arrived. -/
def deletionDone : List StoreOp :=
  [.commit [sampleJob "m2" 30 [sampleRecipient "d2" (sampleMatch 1 "*" "u+t" "example.com")]],
   .bulkDeleteBatch "j1".toList 1000 40]

theorem deletionDone_spares : Throughout .ascii (SparesScope .ascii
    ((empty.run .ascii (deletionRequested.take 2)).JobScope deletionMailbox))
    (empty.run .ascii deletionRequested) deletionDone := by
  refine ⟨⟨?_, by unfold MergesSpare; decide +kernel⟩,
    ⟨?_, by unfold MergesSpare; decide +kernel⟩, trivial⟩
  · rintro id ⟨job, hjob, r, hr, rfl⟩
    rw [List.mem_singleton.mp hjob] at hr
    rw [List.mem_singleton.mp hr]
    decide +kernel
  · rintro id ⟨⟩

/-- The first message is deleted once the job is done. -/
theorem bulk_delete_complete_first_message :
    (∃ d ∈ ((empty.run .ascii deletionRequested).run .ascii deletionDone).deliveries,
      (empty.run .ascii (deletionRequested.take 2)).JobScope deletionMailbox d.id) ∧
    ∀ d ∈ ((empty.run .ascii deletionRequested).run .ascii deletionDone).deliveries,
      (empty.run .ascii (deletionRequested.take 2)).JobScope deletionMailbox d.id →
        d.status ≠ .active := by
  refine ⟨by decide +kernel, ?_⟩
  have hcreate : (empty.run .ascii (deletionRequested.take 2)).createOrResumeBulkDeleteJob
      "j1".toList deletionMailbox.id 20 = .ok ("j1".toList, empty.run .ascii deletionRequested) := by
    decide +kernel
  exact bulk_delete_complete (run_consistent empty_consistent _) (by decide +kernel)
    (by decide +kernel) hcreate deletionDone_spares (by decide +kernel)

/-- A managed domain that drops the `+` part takes the address over, and the next message to it
    merges the catch-all mailbox into the domain's. -/
def deletionLost : List StoreOp :=
  [.createDomain "example.com".toList "r1".toList { DomainPayload.unset with
     plusAddressingMode := some .strip },
   .commit [sampleJob "m2" 30 [sampleRecipient "d2" (sampleMatch 2 "example.com" "u" "example.com")]],
   .commit [sampleJob "m3" 40 [sampleRecipient "d3" (sampleMatch 1 "*" "u+t" "example.com")]]]

/-- The merge has taken the job with the source mailbox, and its delivery is still active. -/
theorem bulk_delete_lost_by_merge :
    ∃ mailbox ∈ (empty.run .ascii (deletionRequested.take 2)).mailboxes,
      (empty.run .ascii (deletionRequested.take 2)).hasIncompleteJob mailbox.id = false ∧
      (empty.run .ascii (deletionRequested.take 2)).createOrResumeBulkDeleteJob "j1".toList
        mailbox.id 20 = .ok ("j1".toList, empty.run .ascii deletionRequested) ∧
      (∀ j ∈ ((empty.run .ascii deletionRequested).run .ascii deletionLost).bulkDeleteJobs,
        j.id = "j1".toList → j.incomplete = false) ∧
      ¬∀ d ∈ ((empty.run .ascii deletionRequested).run .ascii deletionLost).deliveries,
        (empty.run .ascii (deletionRequested.take 2)).JobScope mailbox d.id →
          d.status ≠ .active := by
  decide +kernel

end Db
end RapidInbox

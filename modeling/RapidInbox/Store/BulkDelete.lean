import Mathlib.Data.List.Induction
import RapidInbox.Store.ServiceEdits

/-!
# What a bulk-delete job deletes

A job covers the active deliveries that its mailbox had when the job was created.  Its row says so
indirectly, by the mailbox and its generation: creating the job moves the generation on, and every
insert and every merge stamps a delivery with the generation of the mailbox it goes to.  So no
delivery enters the scope of a job, whatever happens to the tables.
-/

namespace RapidInbox

open Table Relation

/-- A delivery that a job over a generation of a mailbox may delete. -/
structure DeliveryRow.InScope (d : DeliveryRow) (mailboxId generation : Nat) : Prop where
  mailbox : d.mailboxId = mailboxId
  active : d.status = .active
  generation : d.mailboxGeneration = generation

instance (d : DeliveryRow) (mailboxId generation : Nat) :
    Decidable (d.InScope mailboxId generation) :=
  decidable_of_iff (d.mailboxId = mailboxId ∧ d.status = .active ∧
    d.mailboxGeneration = generation)
    ⟨fun h => ⟨h.1, h.2.1, h.2.2⟩, fun h => ⟨h.mailbox, h.active, h.generation⟩⟩

/-- Two states of one row. -/
structure DeliveryRow.SameRow (d e : DeliveryRow) : Prop where
  rowid : d.rowid = e.rowid
  id : d.id = e.id
  messageId : d.messageId = e.messageId

theorem DeliveryRow.SameRow.trans {d e f : DeliveryRow} (h : d.SameRow e) (h' : e.SameRow f) :
    d.SameRow f := ⟨h.rowid.trans h'.rowid, h.id.trans h'.id, h.messageId.trans h'.messageId⟩

theorem DeliveryRow.SameRow.refl (d : DeliveryRow) : d.SameRow d := ⟨rfl, rfl, rfl⟩

/-- A generation of a mailbox is over: the mailbox has moved on, if it is still there, and its id
    is not given to another one. -/
structure Db.GenerationClosed (db : Db) (mailboxId generation : Nat) : Prop where
  issued : mailboxId ≤ db.mailboxSeq
  passed : ∀ b ∈ db.mailboxes, b.id = mailboxId → generation < b.bulkDeleteGeneration

/-- No delivery has entered a scope: what is in it was in it before. -/
def Db.ScopeShrinks (mailboxId generation : Nat) (db db' : Db) : Prop :=
  ∀ d' ∈ db'.deliveries, d'.InScope mailboxId generation →
    ∃ d ∈ db.deliveries, d.InScope mailboxId generation ∧ d.SameRow d'

/-- Two states of one job: progress apart, the same row. -/
structure BulkDeleteJob.SameJob (j j' : BulkDeleteJob) : Prop where
  id : j.id = j'.id
  mailboxId : j.mailboxId = j'.mailboxId
  targetGeneration : j.targetGeneration = j'.targetGeneration

theorem BulkDeleteJob.SameJob.refl (j : BulkDeleteJob) : j.SameJob j := ⟨rfl, rfl, rfl⟩

theorem BulkDeleteJob.SameJob.trans {j j' j'' : BulkDeleteJob} (h : j.SameJob j')
    (h' : j'.SameJob j'') : j.SameJob j'' :=
  ⟨h.id.trans h'.id, h.mailboxId.trans h'.mailboxId, h.targetGeneration.trans h'.targetGeneration⟩

namespace Db

variable {rules : EditRules} {db db' : Db} {mailboxId generation : Nat}

theorem ScopeShrinks.refl (db : Db) : ScopeShrinks mailboxId generation db db :=
  fun d hd hscope => ⟨d, hd, hscope, .refl d⟩

theorem ScopeShrinks.trans {db'' : Db} (h : ScopeShrinks mailboxId generation db db')
    (h' : ScopeShrinks mailboxId generation db' db'') :
    ScopeShrinks mailboxId generation db db'' := by
  intro d'' hd'' hscope''
  obtain ⟨d', hd', hscope', hrow'⟩ := h' d'' hd'' hscope''
  obtain ⟨d, hd, hscope, hrow⟩ := h d' hd' hscope'
  exact ⟨d, hd, hscope, hrow.trans hrow'⟩

/-- Deleting rows, for good or softly, lets nothing in. -/
theorem ScopeShrinks.of_mem
    (h : ∀ d ∈ db'.deliveries, d.status = .active → d ∈ db.deliveries) :
    ScopeShrinks mailboxId generation db db' :=
  fun d hd hscope => ⟨d, h d hd hscope.active, hscope, .refl d⟩

theorem mem_softDeleteWhere {p : DeliveryRow → Bool} {deletedAt : Timestamp} {d : DeliveryRow}
    (hd : d ∈ (db.softDeleteWhere p deletedAt).deliveries) (hactive : d.status = .active) :
    d ∈ db.deliveries ∧ p d = false := by
  obtain ⟨e, he, rfl⟩ := mem_updateWhere.mp hd
  split at hactive
  · cases hactive
  · rename_i hp
    rw [if_neg hp]
    exact ⟨he, by simpa using hp⟩

theorem advanceBulkDeleteJob_deliveries (job : BulkDeleteJob) (batchSize : Nat) (now : Timestamp) :
    (db.advanceBulkDeleteJob job batchSize now).deliveries =
      (db.softDeleteWhere (inPage job (db.bulkDeletePage job batchSize)) job.deletedAt).deliveries := by
  unfold advanceBulkDeleteJob
  dsimp only
  split
  · rfl
  · rfl

/-- The mailbox that a delivery is stamped for has a later generation. -/
theorem GenerationClosed.lt_generationOf (h : db.GenerationClosed mailboxId generation)
    (hdb : db.Consistent) (hbox : ∃ b ∈ db.mailboxes, b.id = mailboxId) :
    generation < db.generationOf mailboxId := by
  obtain ⟨b, hb, hid⟩ := hbox
  rw [generationOf, mailbox?, hdb.mailbox_ids.find?_eq_some hb hid]
  exact h.passed b hb hid

/-- A merge stamps what it moves or collapses with the generation of the target. -/
theorem mergeDeliveries_shrinks (hdb : db.Consistent)
    (hclosed : db.GenerationClosed mailboxId generation) {read : Text → Text} {source target : Nat}
    (ht : ∃ b ∈ db.mailboxes, b.id = target) :
    ScopeShrinks mailboxId generation db (db.mergeDeliveries read source target) := by
  intro d' hd' hscope
  obtain ⟨d, hd, hrow⟩ := List.mem_filterMap.mp hd'
  have hstamp (hbox : target = mailboxId) : generation < db.generationOf target :=
    hbox ▸ hclosed.lt_generationOf hdb (hbox ▸ ht)
  obtain ⟨hdt, copy, -, rfl⟩ | ⟨-, -, -, rfl⟩ | ⟨-, -, rfl⟩ := mergeRow_cases hrow
  · have hlt := hstamp (hdt.symm.trans hscope.mailbox)
    exact absurd hscope.generation (Nat.ne_of_gt hlt)
  · have hlt := hstamp hscope.mailbox
    exact absurd hscope.generation (Nat.ne_of_gt hlt)
  · exact ⟨d', hd, hscope, .refl d'⟩

theorem addDelivery_shrinks (hdb : db.Consistent)
    (hclosed : db.GenerationClosed mailboxId generation) {id messageId rcptTo : Text} {target : Nat}
    {deliveredAt : Timestamp} {expiresAt : Option Timestamp}
    (hp : db.deliveryParentsExist messageId target) :
    ScopeShrinks mailboxId generation db (db.addDelivery id messageId target rcptTo deliveredAt
      expiresAt (db.generationOf target)) := by
  intro d hd hscope
  rcases List.mem_append.mp hd with hd | hd
  · exact ⟨d, hd, hscope, .refl d⟩
  · have hnew := List.mem_singleton.mp hd
    subst hnew
    have hbox : target = mailboxId := hscope.mailbox
    subst hbox
    have hlt := hclosed.lt_generationOf hdb (deliveryParentsExist_iff.mp hp).2
    exact absurd hscope.generation (Nat.ne_of_gt hlt)

/-- Updates of mailboxes that keep ids and never lower a generation keep a generation closed. -/
theorem GenerationClosed.updateWhere (h : db.GenerationClosed mailboxId generation)
    {p : MailboxRow → Bool} {f : MailboxRow → MailboxRow}
    (hf : ∀ b, p b → (f b).id = b.id ∧ b.bulkDeleteGeneration ≤ (f b).bulkDeleteGeneration) :
    ∀ b ∈ updateWhere p f db.mailboxes, b.id = mailboxId → generation < b.bulkDeleteGeneration := by
  intro b hb hid
  obtain ⟨c, hc, rfl⟩ := mem_updateWhere.mp hb
  split at hid
  · rename_i hp
    rw [if_pos hp]
    rw [(hf c hp).1] at hid
    exact Nat.lt_of_lt_of_le (h.passed c hc hid) (hf c hp).2
  · rename_i hp
    rw [if_neg hp]
    exact h.passed c hc hid

theorem startBulkDeleteJob_closed (hdb : db.Consistent) {jobId : Text} {mailbox : MailboxRow}
    {deletedAt : Timestamp} (hmailbox : mailbox ∈ db.mailboxes)
    (h : db.GenerationClosed mailboxId generation) :
    (db.startBulkDeleteJob jobId mailbox deletedAt).GenerationClosed mailboxId generation := by
  refine ⟨h.issued, ?_⟩
  intro b hb hid
  obtain ⟨c, hc, rfl⟩ := mem_updateWhere.mp hb
  split at hid
  · rename_i hp
    rw [if_pos hp]
    have hcm : c = mailbox := hdb.mailbox_ids.eq_of_mem hc hmailbox (by simpa using hp)
    exact Nat.lt_succ_of_lt (h.passed mailbox hmailbox (hcm ▸ hid))
  · rename_i hp
    rw [if_neg hp]
    exact h.passed c hc hid

end Db

open Db

variable {rules : EditRules} {db db' : Db} {mailboxId generation : Nat}

/-- A generation that is closed stays closed, and nothing enters its scope. -/
theorem Edit.scope (hdb : db.Consistent) (hclosed : db.GenerationClosed mailboxId generation)
    (hedit : Edit rules db db') :
    db'.GenerationClosed mailboxId generation ∧ ScopeShrinks mailboxId generation db db' := by
  cases hedit with
  | addMailbox hins =>
    obtain ⟨-, -, rfl, rfl⟩ := insertMailbox_ok hins
    refine ⟨⟨Nat.le_succ_of_le hclosed.issued, ?_⟩, .of_mem fun d hd _ => hd⟩
    intro b hb hid
    rcases List.mem_append.mp hb with hb | hb
    · exact hclosed.passed b hb hid
    · rw [List.mem_singleton.mp hb] at hid
      have := hclosed.issued
      simp only at hid
      omega
  | setIdentity _ _ hupd =>
    obtain ⟨-, -, rfl⟩ := updateMailboxIdentity_ok hupd
    exact ⟨⟨hclosed.issued, hclosed.updateWhere fun _ _ => ⟨rfl, Nat.le_refl _⟩⟩,
      .of_mem fun d hd _ => hd⟩
  | setColumns hf =>
    exact ⟨⟨hclosed.issued, hclosed.updateWhere fun b _ =>
      ⟨hf.id b, Nat.le_of_eq (hf.bulkDeleteGeneration b).symm⟩⟩, .of_mem fun d hd _ => hd⟩
  | mergeDeliveries _ ht =>
    exact ⟨⟨hclosed.issued, hclosed.passed⟩, mergeDeliveries_shrinks hdb hclosed ht⟩
  | dropMailboxes _ =>
    exact ⟨⟨hclosed.issued, fun b hb => hclosed.passed b (List.mem_of_mem_filter hb)⟩,
      .of_mem fun d hd _ => hd⟩
  | addDelivery _ _ hp =>
    exact ⟨⟨hclosed.issued, hclosed.passed⟩, addDelivery_shrinks hdb hclosed hp⟩
  | softDelete =>
    exact ⟨⟨hclosed.issued, hclosed.passed⟩,
      .of_mem fun d hd hactive => (mem_softDeleteWhere hd hactive).1⟩
  | dropDeliveries =>
    exact ⟨⟨hclosed.issued, hclosed.passed⟩, .of_mem fun d hd _ => List.mem_of_mem_filter hd⟩
  | dropMessages =>
    exact ⟨⟨hclosed.issued, hclosed.passed⟩, .of_mem fun d hd _ => List.mem_of_mem_filter hd⟩
  | createJob _ hjob =>
    obtain ⟨mailbox, hmailbox, rfl, ⟨job, -, -, -, -, rfl⟩ | ⟨-, -, -, rfl⟩⟩ :=
      createOrResumeBulkDeleteJob_ok hjob
    · exact ⟨hclosed, .refl _⟩
    · exact ⟨startBulkDeleteJob_closed hdb hmailbox hclosed, .of_mem fun d hd _ => hd⟩
  | processJob hjob =>
    obtain ⟨job, -, -, -, ⟨-, rfl⟩ | ⟨-, rfl⟩⟩ := processBulkDeleteJobBatch_ok hjob
    · exact ⟨hclosed, .refl _⟩
    · refine ⟨?_, .of_mem ?_⟩
      · unfold advanceBulkDeleteJob
        dsimp only
        split
        · exact ⟨hclosed.issued, hclosed.updateWhere fun _ _ => ⟨rfl, Nat.le_refl _⟩⟩
        · exact ⟨hclosed.issued, hclosed.passed⟩
      · intro d hd hactive
        rw [advanceBulkDeleteJob_deliveries] at hd
        exact (mem_softDeleteWhere hd hactive).1
  | failJob => exact ⟨⟨hclosed.issued, hclosed.passed⟩, .refl _⟩
  | setDomains _ _ _ _ => exact ⟨⟨hclosed.issued, hclosed.passed⟩, .of_mem fun d hd _ => hd⟩
  | addMessage hmsg _ =>
    obtain ⟨-, rfl⟩ := insertMessage_ok hmsg
    exact ⟨⟨hclosed.issued, hclosed.passed⟩, .of_mem fun d hd _ => hd⟩
  | addAttachment hatt =>
    obtain ⟨-, -, rfl⟩ := insertAttachment_ok hatt
    exact ⟨⟨hclosed.issued, hclosed.passed⟩, .of_mem fun d hd _ => hd⟩
  | bookkeeping => exact ⟨⟨hclosed.issued, hclosed.passed⟩, .of_mem fun d hd _ => hd⟩

theorem Edits.scope (hdb : db.Consistent) (hclosed : db.GenerationClosed mailboxId generation)
    (hedits : Edits rules db db') :
    db'.GenerationClosed mailboxId generation ∧ ScopeShrinks mailboxId generation db db' := by
  induction hedits with
  | refl => exact ⟨hclosed, .refl _⟩
  | tail hchain hedit ih =>
    obtain ⟨hclosed', hshrinks⟩ := hedit.scope (Edits.consistent hdb hchain) ih.1
    exact ⟨hclosed', ih.2.trans hshrinks⟩

/-- Where no job is created, every job was there before. -/
theorem Edit.sameJob (hrule : ∀ id, ¬rules.newJob id) (hedit : Edit rules db db') :
    ∀ j' ∈ db'.bulkDeleteJobs, ∃ j ∈ db.bulkDeleteJobs, j.SameJob j' := by
  have hupd {p : BulkDeleteJob → Bool} {f : BulkDeleteJob → BulkDeleteJob}
      (hf : ∀ j : BulkDeleteJob, j.SameJob (f j)) :
      ∀ j' ∈ updateWhere p f db.bulkDeleteJobs, ∃ j ∈ db.bulkDeleteJobs, j.SameJob j' := by
    intro j' hj'
    obtain ⟨j, hj, rfl⟩ := mem_updateWhere.mp hj'
    refine ⟨j, hj, ?_⟩
    split
    · exact hf j
    · exact .refl j
  intro j' hj'
  cases hedit with
  | createJob hnew _ => exact absurd hnew (hrule _)
  | processJob hjob =>
    obtain ⟨job, hjobmem, -, -, ⟨-, rfl⟩ | ⟨-, rfl⟩⟩ := processBulkDeleteJobBatch_ok hjob
    · exact ⟨j', hj', .refl j'⟩
    · unfold advanceBulkDeleteJob at hj'
      dsimp only at hj'
      split at hj'
      · refine hupd ?_ j' hj'
        exact fun _ => ⟨rfl, rfl, rfl⟩
      · refine hupd ?_ j' hj'
        exact fun _ => ⟨rfl, rfl, rfl⟩
  | failJob =>
    refine hupd ?_ j' hj'
    intro j
    split
    · exact .refl j
    · exact ⟨rfl, rfl, rfl⟩
  | addMailbox hins =>
    obtain ⟨-, -, rfl, rfl⟩ := insertMailbox_ok hins
    exact ⟨j', hj', .refl j'⟩
  | setIdentity _ _ h =>
    obtain ⟨-, -, rfl⟩ := updateMailboxIdentity_ok h
    exact ⟨j', hj', .refl j'⟩
  | dropMailboxes _ => exact ⟨j', List.mem_of_mem_filter hj', .refl j'⟩
  | addMessage hmsg _ =>
    obtain ⟨-, rfl⟩ := insertMessage_ok hmsg
    exact ⟨j', hj', .refl j'⟩
  | addAttachment hatt =>
    obtain ⟨-, -, rfl⟩ := insertAttachment_ok hatt
    exact ⟨j', hj', .refl j'⟩
  | setColumns _ => exact ⟨j', hj', .refl j'⟩
  | mergeDeliveries _ _ => exact ⟨j', hj', .refl j'⟩
  | addDelivery _ _ _ => exact ⟨j', hj', .refl j'⟩
  | softDelete => exact ⟨j', hj', .refl j'⟩
  | dropDeliveries => exact ⟨j', hj', .refl j'⟩
  | dropMessages => exact ⟨j', hj', .refl j'⟩
  | setDomains _ _ _ _ => exact ⟨j', hj', .refl j'⟩
  | bookkeeping => exact ⟨j', hj', .refl j'⟩

theorem Edits.sameJob (hrule : ∀ id, ¬rules.newJob id) (hedits : Edits rules db db') :
    ∀ j' ∈ db'.bulkDeleteJobs, ∃ j ∈ db.bulkDeleteJobs, j.SameJob j' := by
  induction hedits with
  | refl => exact fun j hj => ⟨j, hj, .refl j⟩
  | tail _ hedit ih =>
    intro j'' hj''
    obtain ⟨j', hj', hsame'⟩ := hedit.sameJob hrule j'' hj''
    obtain ⟨j, hj, hsame⟩ := ih j' hj'
    exact ⟨j, hj, hsame.trans hsame'⟩

/-! ## Jobs in a history -/

namespace Db

theorem run_append (E : StoreEnv) (db : Db) (ops ops' : List StoreOp) :
    db.run E (ops ++ ops') = (db.run E ops).run E ops' := List.foldl_append

/-- A job after one operation: it was there before, or the operation created it. -/
theorem exec_job {E : StoreEnv} (hdb : db.Consistent) {op : StoreOp} {j' : BulkDeleteJob}
    (hj' : j' ∈ (db.exec E op).bulkDeleteJobs) :
    (∃ j ∈ db.bulkDeleteJobs, j.SameJob j') ∨
      ∃ jobId deletedAt, ∃ mailbox ∈ db.mailboxes,
        op = .createBulkDelete jobId mailbox.id deletedAt ∧
        j' = db.newBulkDeleteJob jobId mailbox deletedAt ∧
        db.exec E op = db.startBulkDeleteJob jobId mailbox deletedAt := by
  by_cases hcreate : ∃ jobId mailboxId deletedAt, op = .createBulkDelete jobId mailboxId deletedAt
  · obtain ⟨jobId, mailboxId, deletedAt, rfl⟩ := hcreate
    have htransaction : StoreOp.transaction E db (.createBulkDelete jobId mailboxId deletedAt) =
        (db.createOrResumeBulkDeleteJob jobId mailboxId deletedAt).map Prod.snd := rfl
    cases hjob : db.createOrResumeBulkDeleteJob jobId mailboxId deletedAt with
    | error e =>
      rw [exec, htransaction, hjob] at hj'
      exact .inl ⟨j', hj', .refl j'⟩
    | ok result =>
      obtain ⟨id, db'⟩ := result
      have heq : db.exec E (.createBulkDelete jobId mailboxId deletedAt) = db' := by
        rw [exec, htransaction, hjob]
        rfl
      rw [heq] at hj'
      obtain ⟨mailbox, hmailbox, rfl, ⟨job, -, -, -, -, rfl⟩ | ⟨-, -, -, rfl⟩⟩ :=
        createOrResumeBulkDeleteJob_ok hjob
      · exact .inl ⟨j', hj', .refl j'⟩
      · rcases List.mem_append.mp hj' with hj' | hj'
        · exact .inl ⟨j', List.mem_of_mem_filter hj', .refl j'⟩
        · exact .inr ⟨jobId, deletedAt, mailbox, hmailbox, rfl, List.mem_singleton.mp hj', heq⟩
  · refine .inl (Edits.sameJob ?_ (exec_edits hdb op) j' hj')
    rintro id ⟨mailboxId, deletedAt, rfl⟩
    exact hcreate ⟨id, mailboxId, deletedAt, rfl⟩

/-- A job was created by the operation after `before` of a history, over the generation its mailbox
    had then, and no delivery has entered its scope since. -/
structure JobOrigin (E : StoreEnv) (start : Db) (ops before : List StoreOp) (j : BulkDeleteJob) :
    Prop where
  created : ∃ mailbox ∈ (start.run E before).mailboxes, ∃ deletedAt,
    mailbox.id = j.mailboxId ∧ mailbox.bulkDeleteGeneration = j.targetGeneration ∧
    before ++ [.createBulkDelete j.id mailbox.id deletedAt] <+: ops ∧
    start.run E (before ++ [.createBulkDelete j.id mailbox.id deletedAt]) =
      (start.run E before).startBulkDeleteJob j.id mailbox deletedAt
  closed : (start.run E ops).GenerationClosed j.mailboxId j.targetGeneration
  shrinks : ∀ since, before <+: since → since <+: ops →
    ScopeShrinks j.mailboxId j.targetGeneration (start.run E since) (start.run E ops)

/-- One more operation. -/
theorem JobOrigin.snoc {E : StoreEnv} {start : Db} {ops before : List StoreOp}
    {j j' : BulkDeleteJob} (h : JobOrigin E start ops before j) (hsame : j.SameJob j')
    (hstart : start.Consistent) (op : StoreOp) : JobOrigin E start (ops ++ [op]) before j' := by
  obtain ⟨hid, hmailbox, htarget⟩ := hsame
  have hrun : start.run E (ops ++ [op]) = (start.run E ops).exec E op := run_append E start ops [op]
  obtain ⟨hclosed, hstep⟩ := Edits.scope (run_consistent hstart ops) h.closed
    (exec_edits (run_consistent hstart ops) op)
  refine
    { created := ?_
      closed := by rw [hrun, ← hmailbox, ← htarget]; exact hclosed
      shrinks := ?_ }
  · obtain ⟨mailbox, hmem, deletedAt, hbox, hgen, hpre, hcreate⟩ := h.created
    rw [← hid]
    exact ⟨mailbox, hmem, deletedAt, hbox.trans hmailbox, hgen.trans htarget,
      hpre.trans (List.prefix_append _ _), hcreate⟩
  · intro since hbefore hsince
    rw [← hmailbox, ← htarget]
    rcases List.prefix_concat_iff.mp hsince with rfl | hsince
    · exact .refl _
    · rw [hrun]
      exact (h.shrinks since hbefore hsince).trans hstep

/-- The operation that creates a job is its origin. -/
theorem JobOrigin.create {E : StoreEnv} {start : Db} {ops : List StoreOp} (hstart : start.Consistent)
    {jobId : Text} {mailbox : MailboxRow} {deletedAt : Timestamp}
    (hmailbox : mailbox ∈ (start.run E ops).mailboxes)
    (hexec : (start.run E ops).exec E (.createBulkDelete jobId mailbox.id deletedAt) =
      (start.run E ops).startBulkDeleteJob jobId mailbox deletedAt) :
    JobOrigin E start (ops ++ [.createBulkDelete jobId mailbox.id deletedAt]) ops
      ((start.run E ops).newBulkDeleteJob jobId mailbox deletedAt) := by
  have hdb := run_consistent (E := E) hstart ops
  have hrun : start.run E (ops ++ [.createBulkDelete jobId mailbox.id deletedAt]) =
      (start.run E ops).startBulkDeleteJob jobId mailbox deletedAt := by
    rw [run_append, ← hexec]
    rfl
  refine
    { created := ⟨mailbox, hmailbox, deletedAt, rfl, rfl, List.prefix_rfl, hrun⟩
      closed := ?_
      shrinks := ?_ }
  · rw [hrun]
    refine ⟨hdb.mailbox_seq mailbox hmailbox, ?_⟩
    intro b hb hid
    obtain ⟨c, hc, rfl⟩ := mem_updateWhere.mp hb
    split at hid
    · rename_i hp
      rw [if_pos hp]
      exact Nat.lt_succ_self _
    · rename_i hp
      have hne : c.id ≠ mailbox.id := by simpa using hp
      exact absurd hid hne
  · intro since hbefore hsince
    rcases List.prefix_concat_iff.mp hsince with rfl | hsince
    · exact .refl _
    · rw [List.IsPrefix.eq_of_length_le hsince hbefore.length_le, hrun]
      exact .of_mem fun d hd _ => hd

/-- Every job of a history has its origin in it. -/
theorem run_jobOrigin {E : StoreEnv} {start : Db} (hstart : start.Consistent)
    (hnojob : start.bulkDeleteJobs = []) (ops : List StoreOp) :
    ∀ j ∈ (start.run E ops).bulkDeleteJobs, ∃ before, JobOrigin E start ops before j := by
  induction ops using List.reverseRecOn with
  | nil =>
    intro j hj
    have hnil : j ∈ start.bulkDeleteJobs := hj
    rw [hnojob] at hnil
    cases hnil
  | append_singleton ops op ih =>
    intro j' hj'
    rw [run_append] at hj'
    obtain ⟨j, hj, hsame⟩ | ⟨jobId, deletedAt, mailbox, hmailbox, rfl, rfl, hexec⟩ :=
      exec_job (run_consistent hstart ops) hj'
    · obtain ⟨before, horigin⟩ := ih j hj
      exact ⟨before, horigin.snoc hsame hstart op⟩
    · exact ⟨ops, .create hstart hmailbox hexec⟩

/-- A batch of a job changes the rows of its page, and these are in its scope. -/
theorem processBulkDeleteJobBatch_changes {jobId : Text} {batchSize : Nat} {now : Timestamp}
    (h : db.processBulkDeleteJobBatch jobId batchSize now = .ok db') :
    ∃ j ∈ db.bulkDeleteJobs, j.id = jobId ∧
      ∀ d ∈ db.deliveries, d ∈ db'.deliveries ∨ d.InScope j.mailboxId j.targetGeneration := by
  obtain ⟨j, hj, hid, -, ⟨-, rfl⟩ | ⟨-, rfl⟩⟩ := processBulkDeleteJobBatch_ok h
  · exact ⟨j, hj, hid, fun d hd => .inl hd⟩
  · refine ⟨j, hj, hid, ?_⟩
    intro d hd
    rw [advanceBulkDeleteJob_deliveries]
    cases hpage : inPage j (db.bulkDeletePage j batchSize) d with
    | false => exact .inl (mem_updateWhere.mpr ⟨d, hd, by simp [hpage]⟩)
    | true =>
      simp only [inPage, Bool.and_eq_true, decide_eq_true_iff] at hpage
      exact .inr ⟨hpage.1.1.1, hpage.1.1.2, hpage.1.2⟩

/-- Whatever happens between the batches of a job, a batch leaves a delivery alone unless it has
    been an active delivery of the job's mailbox, with the generation the mailbox had when the job
    was created, in every state since then. -/
theorem bulk_delete_isolated {E : StoreEnv} {start : Db} (hstart : start.Consistent)
    (hnojob : start.bulkDeleteJobs = []) (ops : List StoreOp) {jobId : Text} {batchSize : Nat}
    {now : Timestamp} {after : Db}
    (h : (start.run E ops).processBulkDeleteJobBatch jobId batchSize now = .ok after) :
    ∃ before, ∃ mailbox ∈ (start.run E before).mailboxes, ∃ deletedAt,
      before ++ [.createBulkDelete jobId mailbox.id deletedAt] <+: ops ∧
      start.run E (before ++ [.createBulkDelete jobId mailbox.id deletedAt]) =
        (start.run E before).startBulkDeleteJob jobId mailbox deletedAt ∧
      ∀ d ∈ (start.run E ops).deliveries, d ∈ after.deliveries ∨
        ∀ since, before <+: since → since <+: ops →
          ∃ d₀ ∈ (start.run E since).deliveries,
            d₀.InScope mailbox.id mailbox.bulkDeleteGeneration ∧ d₀.SameRow d := by
  obtain ⟨j, hj, rfl, hchange⟩ := processBulkDeleteJobBatch_changes h
  obtain ⟨before, horigin⟩ := run_jobOrigin hstart hnojob ops j hj
  obtain ⟨mailbox, hmem, deletedAt, hbox, hgen, hpre, hcreate⟩ := horigin.created
  refine ⟨before, mailbox, hmem, deletedAt, hpre, hcreate, ?_⟩
  intro d hd
  refine (hchange d hd).imp_right ?_
  intro hscope since hbefore hsince
  rw [hbox, hgen]
  exact horigin.shrinks since hbefore hsince d hd hscope

/-- Two messages to one mailbox, with a bulk-delete job created between them. -/
def bulkDeleteHistory : List StoreOp :=
  [.createDomain "example.com".toList "r1".toList .unset,
   .commit [sampleJob "m1" 10 [sampleRecipient "d1" (sampleMatch 1 "example.com" "u" "example.com")]],
   .createBulkDelete "j1".toList 1 20,
   .commit [sampleJob "m2" 30 [sampleRecipient "d2" (sampleMatch 1 "example.com" "u" "example.com")]]]

/-- The job deletes the first message and leaves the second. -/
theorem bulk_delete_isolated_second_message : ∃ after,
    (empty.run .ascii bulkDeleteHistory).processBulkDeleteJobBatch "j1".toList 1000 40 = .ok after ∧
      after.deliveries.map (fun d => (d.id, d.status)) =
        [("d1".toList, .deleted), ("d2".toList, .active)] ∧
      ∃ before, ∃ mailbox ∈ (empty.run .ascii before).mailboxes, ∃ deletedAt,
        before ++ [.createBulkDelete "j1".toList mailbox.id deletedAt] <+: bulkDeleteHistory ∧
        empty.run .ascii (before ++ [.createBulkDelete "j1".toList mailbox.id deletedAt]) =
          (empty.run .ascii before).startBulkDeleteJob "j1".toList mailbox deletedAt ∧
        ∀ d ∈ (empty.run .ascii bulkDeleteHistory).deliveries, d ∈ after.deliveries ∨
          ∀ since, before <+: since → since <+: bulkDeleteHistory →
            ∃ d₀ ∈ (empty.run .ascii since).deliveries,
              d₀.InScope mailbox.id mailbox.bulkDeleteGeneration ∧ d₀.SameRow d := by
  have hdone : ((empty.run .ascii bulkDeleteHistory).processBulkDeleteJobBatch "j1".toList 1000
      40).toOption.map (fun db => db.deliveries.map fun d => (d.id, d.status)) =
        some [("d1".toList, .deleted), ("d2".toList, .active)] := by decide +kernel
  cases h : (empty.run .ascii bulkDeleteHistory).processBulkDeleteJobBatch "j1".toList 1000 40 with
  | error e =>
    rw [h] at hdone
    cases hdone
  | ok after =>
    rw [h] at hdone
    exact ⟨after, rfl, Option.some.inj hdone, bulk_delete_isolated empty_consistent rfl _ h⟩

end Db
end RapidInbox

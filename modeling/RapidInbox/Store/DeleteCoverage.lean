import RapidInbox.Store.BulkComplete

/-!
# Jobs and generations account for every active delivery

An active delivery has the generation of its mailbox, or it is in the window of the job of its mailbox
that is not complete.  So a mailbox without such a job has active deliveries of its current generation
only, and a new job covers them all.
-/

namespace RapidInbox

open Table Relation

namespace Db

variable {rules : EditRules} {db db' : Db}

/-- The jobs, the generations of the mailboxes and the active deliveries fit together. -/
structure Accounted (db : Db) : Prop where
  passed : ∀ j ∈ db.bulkDeleteJobs, ∀ b ∈ db.mailboxes, b.id = j.mailboxId →
    j.targetGeneration < b.bulkDeleteGeneration
  window : ∀ j ∈ db.bulkDeleteJobs, j.incomplete → ∀ d ∈ db.deliveries,
    d.InScope j.mailboxId j.targetGeneration → inJobWindow j d
  generation : ∀ d ∈ db.deliveries, d.status = .active → ∀ b ∈ db.mailboxes, b.id = d.mailboxId →
    d.mailboxGeneration = b.bulkDeleteGeneration ∨
      ∃ j ∈ db.bulkDeleteJobs, j.incomplete ∧ d.InScope j.mailboxId j.targetGeneration

theorem empty_accounted : empty.Accounted := ⟨nofun, nofun, nofun⟩

theorem Accounted.closed (h : db.Accounted) (hdb : db.Consistent) {j : BulkDeleteJob}
    (hj : j ∈ db.bulkDeleteJobs) : db.GenerationClosed j.mailboxId j.targetGeneration := by
  obtain ⟨b, hb, hid⟩ := hdb.job_mailboxes j hj
  exact ⟨hid ▸ hdb.mailbox_seq b hb, h.passed j hj⟩

/-- What the edits of the tables other than those of jobs keep. -/
theorem Accounted.of_jobs (h : db.Accounted) (hdb : db.Consistent) (hedit : Edit rules db db')
    (hjobs : ∀ j ∈ db'.bulkDeleteJobs, j ∈ db.bulkDeleteJobs)
    (hgeneration : ∀ d ∈ db'.deliveries, d.status = .active → ∀ b ∈ db'.mailboxes,
      b.id = d.mailboxId → d.mailboxGeneration = b.bulkDeleteGeneration ∨
        ∃ j ∈ db'.bulkDeleteJobs, j.incomplete ∧ d.InScope j.mailboxId j.targetGeneration) :
    db'.Accounted where
  passed j hj := (hedit.scope hdb (h.closed hdb (hjobs j hj))).1.passed
  window j hj hinc d' hd' hscope := by
    obtain ⟨d, hd, hscope', hrow⟩ :=
      (hedit.scope hdb (h.closed hdb (hjobs j hj))).2 d' hd' hscope
    obtain ⟨-, hlow, hhigh⟩ := inJobWindow_iff.mp (h.window j (hjobs j hj) hinc d hd hscope')
    rw [hrow.rowid] at hlow hhigh
    exact inJobWindow_iff.mpr ⟨hscope, hlow, hhigh⟩
  generation := hgeneration

/-- Mailboxes keep their generations, and no delivery becomes active. -/
theorem Accounted.of_mem (h : db.Accounted) (hdb : db.Consistent) (hedit : Edit rules db db')
    (hboxes : ∀ b ∈ db'.mailboxes, ∃ c ∈ db.mailboxes, c.id = b.id ∧
      c.bulkDeleteGeneration = b.bulkDeleteGeneration)
    (hjobs : ∀ j ∈ db'.bulkDeleteJobs, j ∈ db.bulkDeleteJobs)
    (hkept : ∀ j ∈ db.bulkDeleteJobs, (∃ d ∈ db'.deliveries, d.mailboxId = j.mailboxId) →
      j ∈ db'.bulkDeleteJobs)
    (hrows : ∀ d ∈ db'.deliveries, d.status = .active → d ∈ db.deliveries) : db'.Accounted := by
  refine h.of_jobs hdb hedit hjobs ?_
  intro d hd hactive b hb hid
  obtain ⟨c, hc, hcid, hgen⟩ := hboxes b hb
  rcases h.generation d (hrows d hd hactive) hactive c hc (hcid.trans hid) with hcurrent | hjob
  · exact .inl (hcurrent.trans hgen)
  · obtain ⟨j, hj, hinc, hscope⟩ := hjob
    exact .inr ⟨j, hkept j hj ⟨d, hd, hscope.mailbox⟩, hinc, hscope⟩

/-- Updates of mailboxes that keep ids and generations. -/
theorem updateWhere_generations {p : MailboxRow → Bool} {f : MailboxRow → MailboxRow}
    (hf : ∀ b, (f b).id = b.id ∧ (f b).bulkDeleteGeneration = b.bulkDeleteGeneration) :
    ∀ b ∈ updateWhere p f db.mailboxes, ∃ c ∈ db.mailboxes, c.id = b.id ∧
      c.bulkDeleteGeneration = b.bulkDeleteGeneration := by
  intro b hb
  obtain ⟨c, hc, rfl⟩ := mem_updateWhere.mp hb
  refine ⟨c, hc, ?_⟩
  split
  · exact ⟨(hf c).1.symm, (hf c).2.symm⟩
  · exact ⟨rfl, rfl⟩

theorem Accounted.addMailbox (h : db.Accounted) (hdb : db.Consistent) {m : DomainMatch}
    {seenAt : Timestamp} {count id : Nat} {latest : Option Timestamp}
    (hins : db.insertMailbox m seenAt count latest = .ok (id, db')) : db'.Accounted := by
  have hedit : Edit (idRules (fun _ => True) fun _ => True) db db' := .addMailbox hins
  obtain ⟨-, -, rfl, rfl⟩ := insertMailbox_ok hins
  refine h.of_jobs hdb hedit (fun _ hj => hj) ?_
  intro d hd hactive b hb hid
  rcases List.mem_append.mp hb with hb | hb
  · exact h.generation d hd hactive b hb hid
  · obtain ⟨c, hc, hcid⟩ := hdb.delivery_mailboxes d hd
    have hissued := hdb.mailbox_seq c hc
    rw [List.mem_singleton.mp hb] at hid
    simp only at hid
    omega

/-- A merge stamps what it moves or collapses with the current generation of the target. -/
theorem Accounted.mergeDeliveries (h : db.Accounted) (hdb : db.Consistent) {read : Text → Text}
    {source target : Nat} (hne : source ≠ target) (ht : ∃ b ∈ db.mailboxes, b.id = target) :
    (db.mergeDeliveries read source target).Accounted := by
  have hedit : Edit (idRules (fun _ => True) fun _ => True) db
      (db.mergeDeliveries read source target) := .mergeDeliveries hne ht
  refine h.of_jobs hdb hedit (fun _ hj => hj) ?_
  intro d' hd' hactive b hb hid
  obtain ⟨d, hd, hrow⟩ := List.mem_filterMap.mp hd'
  have hstamp (hbox : b.id = target) : db.generationOf target = b.bulkDeleteGeneration :=
    HasMailbox.generationOf ⟨b, hb, hbox, rfl⟩ hdb
  obtain ⟨hdt, copy, -, rfl⟩ | ⟨-, -, -, rfl⟩ | ⟨-, -, rfl⟩ := mergeRow_cases hrow
  · exact .inl (hstamp (hid.trans hdt))
  · exact .inl (hstamp hid)
  · exact h.generation d' hd hactive b hb hid

theorem Accounted.addDelivery (h : db.Accounted) (hdb : db.Consistent) {id messageId rcptTo : Text}
    {mailboxId : Nat} {deliveredAt : Timestamp} {expiresAt : Option Timestamp}
    (hc : db.deliveryConflict id messageId mailboxId = none)
    (hp : db.deliveryParentsExist messageId mailboxId) :
    (db.addDelivery id messageId mailboxId rcptTo deliveredAt expiresAt
      (db.generationOf mailboxId)).Accounted := by
  have hedit : Edit (idRules (fun _ => True) fun _ => True) db (db.addDelivery id messageId mailboxId
      rcptTo deliveredAt expiresAt (db.generationOf mailboxId)) := .addDelivery trivial hc hp
  refine h.of_jobs hdb hedit (fun _ hj => hj) ?_
  intro d hd hactive b hb hid
  rcases List.mem_append.mp hd with hd | hd
  · exact h.generation d hd hactive b hb hid
  · left
    rw [List.mem_singleton.mp hd] at hid ⊢
    exact HasMailbox.generationOf ⟨b, hb, hid, rfl⟩ hdb

/-! ## Jobs -/

theorem Accounted.startBulkDeleteJob (h : db.Accounted) (hdb : db.Consistent) {jobId : Text}
    {mailbox : MailboxRow} {deletedAt : Timestamp} (hmailbox : mailbox ∈ db.mailboxes)
    (hidle : ∀ j ∈ db.bulkDeleteJobs, j.mailboxId = mailbox.id → j.incomplete = false) :
    (db.startBulkDeleteJob jobId mailbox deletedAt).Accounted := by
  have hkept {j : BulkDeleteJob} (hj : j ∈ db.jobsKept mailbox.id) : j ∈ db.bulkDeleteJobs :=
    List.mem_of_mem_filter hj
  -- the new state of a mailbox
  have hbox {b : MailboxRow} (hb : b ∈ (db.startBulkDeleteJob jobId mailbox deletedAt).mailboxes) :
      (b.id = mailbox.id ∧ b.bulkDeleteGeneration = mailbox.bulkDeleteGeneration + 1) ∨
        b.id ≠ mailbox.id ∧ b ∈ db.mailboxes := by
    obtain ⟨c, hc, rfl⟩ := mem_updateWhere.mp hb
    by_cases hid : c.id = mailbox.id
    · simp [hid]
    · simp [hid, hc]
  constructor
  · intro j hj b hb hid
    rcases hbox hb with ⟨hbid, hgen⟩ | ⟨hne, hb⟩
    · rcases List.mem_append.mp hj with hj | hj
      · have hpassed := h.passed j (hkept hj) mailbox hmailbox (hbid.symm.trans hid)
        omega
      · rw [List.mem_singleton.mp hj, hgen]
        exact Nat.lt_succ_self _
    · rcases List.mem_append.mp hj with hj | hj
      · exact h.passed j (hkept hj) b hb hid
      · rw [List.mem_singleton.mp hj] at hid
        exact absurd hid hne
  · intro j hj hinc d hd hscope
    rcases List.mem_append.mp hj with hj | hj
    · exact h.window j (hkept hj) hinc d hd hscope
    · rw [List.mem_singleton.mp hj] at hscope ⊢
      exact newBulkDeleteJob_window hdb hd hscope
  · intro d hd hactive b hb hid
    rcases hbox hb with ⟨hbid, -⟩ | ⟨hne, hb⟩
    · right
      rcases h.generation d hd hactive mailbox hmailbox (hbid.symm.trans hid) with hgen | hjob
      · exact ⟨_, List.mem_append_right _ (List.mem_singleton.mpr rfl), rfl,
          ⟨hid.symm.trans hbid, hactive, hgen⟩⟩
      · obtain ⟨j, hj, hinc, hscope⟩ := hjob
        have hcomplete := hidle j hj (hscope.mailbox.symm.trans (hid.symm.trans hbid))
        rw [hcomplete] at hinc
        cases hinc
    · rcases h.generation d hd hactive b hb hid with hgen | hjob
      · exact .inl hgen
      · obtain ⟨j, hj, hinc, hscope⟩ := hjob
        refine .inr ⟨j, List.mem_append_left _ (List.mem_filter.mpr ⟨hj, ?_⟩), hinc, hscope⟩
        have hother : j.mailboxId ≠ mailbox.id :=
          fun heq => hne (hid.trans (hscope.mailbox.trans heq))
        simp [hother]

/-- A batch of a job. -/
theorem Accounted.advanceBulkDeleteJob (h : db.Accounted) (hdb : db.Consistent) {job : BulkDeleteJob}
    {batchSize : Nat} {now : Timestamp} (hpos : 1 ≤ batchSize) (hjob : job ∈ db.bulkDeleteJobs)
    (hinc : job.incomplete) : (db.advanceBulkDeleteJob job batchSize now).Accounted := by
  have hrows {d : DeliveryRow} (hd : d ∈ (db.advanceBulkDeleteJob job batchSize now).deliveries)
      (hactive : d.status = .active) : d ∈ db.deliveries := by
    rw [advanceBulkDeleteJob_deliveries] at hd
    exact (mem_softDeleteWhere hd hactive).1
  have hboxes : ∀ b ∈ (db.advanceBulkDeleteJob job batchSize now).mailboxes, ∃ c ∈ db.mailboxes,
      c.id = b.id ∧ c.bulkDeleteGeneration = b.bulkDeleteGeneration := by
    unfold Db.advanceBulkDeleteJob
    dsimp only
    split
    · exact updateWhere_generations fun _ => ⟨rfl, rfl⟩
    · exact fun b hb => ⟨b, hb, rfl, rfl⟩
  constructor
  · intro j hj b hb hid
    rw [advanceBulkDeleteJob_jobs] at hj
    obtain ⟨k, hk, rfl⟩ := mem_updateWhere.mp hj
    obtain ⟨c, hc, hcid, hgen⟩ := hboxes b hb
    rw [← hgen]
    split
    · rename_i hkid
      rw [if_pos hkid] at hid
      exact h.passed k hk c hc (hcid.trans hid)
    · rename_i hkid
      rw [if_neg hkid] at hid
      exact h.passed k hk c hc (hcid.trans hid)
  · intro j hj hjinc d hd hscope
    have hmem := hrows hd hscope.active
    rw [advanceBulkDeleteJob_jobs] at hj
    obtain ⟨k, hk, rfl⟩ := mem_updateWhere.mp hj
    by_cases hkid : k.id = job.id
    · obtain rfl := hdb.job_ids.eq_of_mem hk hjob hkid
      simp only [decide_true, if_true] at hjinc hscope ⊢
      obtain ⟨hwindow, -, hlt⟩ := after_batch hdb hd hscope.active fun hmem =>
        h.window k hk hinc d hmem ⟨hscope.mailbox, hscope.active, hscope.generation⟩
      obtain ⟨-, -, hmax⟩ := inJobWindow_iff.mp hwindow
      exact inJobWindow_iff.mpr ⟨hscope, hlt hpos, hmax⟩
    · simp only [hkid, decide_false, Bool.false_eq_true, if_false] at hjinc hscope ⊢
      exact h.window k hk hjinc d hmem hscope
  · intro d hd hactive b hb hid
    obtain ⟨c, hc, hcid, hgen⟩ := hboxes b hb
    rw [← hgen]
    rcases h.generation d (hrows hd hactive) hactive c hc (hcid.trans hid) with hcurrent | hother
    · exact .inl hcurrent
    · right
      obtain ⟨k, hk, hkinc, hscope⟩ := hother
      rw [advanceBulkDeleteJob_jobs]
      refine ⟨_, mem_updateWhere.mpr ⟨k, hk, rfl⟩, ?_⟩
      by_cases hkid : k.id = job.id
      · obtain rfl := hdb.job_ids.eq_of_mem hk hjob hkid
        simp only [decide_true, if_true]
        refine ⟨?_, ⟨hscope.mailbox, hscope.active, hscope.generation⟩⟩
        cases hcomplete : pageCompletes k (db.bulkDeletePage k batchSize) batchSize with
        | false => rfl
        | true =>
          have hgone := not_active_of_completes hdb hpos hd
            (fun _ hmem => h.window k hk hinc d hmem hscope) hcomplete
          exact absurd hactive hgone
      · simp only [hkid, decide_false, Bool.false_eq_true, if_false]
        exact ⟨hkinc, hscope⟩

theorem Accounted.markBulkDeleteJobFailed (h : db.Accounted) {jobId : Text} :
    (db.markBulkDeleteJobFailed jobId).Accounted := by
  -- a job before and after
  have hjob (j : BulkDeleteJob) (hj : j ∈ (db.markBulkDeleteJobFailed jobId).bulkDeleteJobs) :
      ∃ k ∈ db.bulkDeleteJobs, j = k ∨ k.incomplete ∧ j = { k with status := .failed } := by
    obtain ⟨k, hk, rfl⟩ := mem_updateWhere.mp hj
    refine ⟨k, hk, ?_⟩
    split
    · split
      · exact .inl rfl
      · rename_i hstatus
        exact .inr ⟨by simpa [BulkDeleteJob.incomplete] using hstatus, rfl⟩
    · exact .inl rfl
  constructor
  · intro j hj b hb hid
    obtain ⟨k, hk, rfl | ⟨-, rfl⟩⟩ := hjob j hj
    · exact h.passed _ hk b hb hid
    · exact h.passed k hk b hb hid
  · intro j hj hinc d hd hscope
    obtain ⟨k, hk, rfl | ⟨hkinc, rfl⟩⟩ := hjob j hj
    · exact h.window _ hk hinc d hd hscope
    · exact h.window k hk hkinc d hd hscope
  · intro d hd hactive b hb hid
    rcases h.generation d hd hactive b hb hid with hcurrent | hother
    · exact .inl hcurrent
    · right
      obtain ⟨k, hk, hkinc, hscope⟩ := hother
      refine ⟨_, mem_updateWhere.mpr ⟨k, hk, rfl⟩, ?_⟩
      split
      · split
        · exact ⟨hkinc, hscope⟩
        · exact ⟨rfl, ⟨hscope.mailbox, hscope.active, hscope.generation⟩⟩
      · exact ⟨hkinc, hscope⟩

end Db

open Db

variable {rules : EditRules} {db db' : Db}

/-! ## Histories -/

theorem Edit.accounted (hdb : db.Consistent) (hedit : Edit rules db db') (h : db.Accounted) :
    db'.Accounted := by
  have hwhole := hedit
  cases hedit with
  | addMailbox hins => exact h.addMailbox hdb hins
  | setIdentity _ _ hupd =>
    obtain ⟨-, -, rfl⟩ := updateMailboxIdentity_ok hupd
    exact h.of_mem hdb hwhole (updateWhere_generations fun _ => ⟨rfl, rfl⟩) (fun _ hj => hj)
      (fun _ hj _ => hj) fun _ hd _ => hd
  | setColumns hf =>
    exact h.of_mem hdb hwhole (updateWhere_generations fun b => ⟨hf.id b, hf.bulkDeleteGeneration b⟩)
      (fun _ hj => hj) (fun _ hj _ => hj) fun _ hd _ => hd
  | mergeDeliveries hne ht => exact h.mergeDeliveries hdb hne ht
  | dropMailboxes hp =>
    refine h.of_mem hdb hwhole (fun b hb => ⟨b, List.mem_of_mem_filter hb, rfl, rfl⟩)
      (fun _ hj => List.mem_of_mem_filter hj) ?_ fun _ hd _ => hd
    rintro j hj ⟨d, hd, hbox⟩
    exact List.mem_filter.mpr ⟨hj, hbox ▸ hp d hd⟩
  | addDelivery _ hc hp => exact h.addDelivery hdb hc hp
  | softDelete =>
    exact h.of_mem hdb hwhole (fun b hb => ⟨b, hb, rfl, rfl⟩) (fun _ hj => hj) (fun _ hj _ => hj)
      fun _ hd hactive => (mem_softDeleteWhere hd hactive).1
  | dropDeliveries =>
    exact h.of_mem hdb hwhole (fun b hb => ⟨b, hb, rfl, rfl⟩) (fun _ hj => hj) (fun _ hj _ => hj)
      fun _ hd _ => List.mem_of_mem_filter hd
  | dropMessages =>
    exact h.of_mem hdb hwhole (fun b hb => ⟨b, hb, rfl, rfl⟩) (fun _ hj => hj) (fun _ hj _ => hj)
      fun _ hd _ => List.mem_of_mem_filter hd
  | createJob _ hjob =>
    obtain ⟨mailbox, hmailbox, rfl, ⟨job, -, -, -, -, rfl⟩ | ⟨hidle, -, -, rfl⟩⟩ :=
      createOrResumeBulkDeleteJob_ok hjob
    · exact h
    · exact h.startBulkDeleteJob hdb hmailbox hidle
  | processJob hjob =>
    obtain ⟨job, hmem, -, hpos, ⟨-, rfl⟩ | ⟨hinc, rfl⟩⟩ := processBulkDeleteJobBatch_ok hjob
    · exact h
    · exact h.advanceBulkDeleteJob hdb hpos hmem hinc
  | failJob => exact h.markBulkDeleteJobFailed
  | addMessage hmsg _ =>
    obtain ⟨-, rfl⟩ := insertMessage_ok hmsg
    exact ⟨h.passed, h.window, h.generation⟩
  | addAttachment hatt =>
    obtain ⟨-, -, rfl⟩ := insertAttachment_ok hatt
    exact ⟨h.passed, h.window, h.generation⟩
  | setDomains _ _ _ _ => exact ⟨h.passed, h.window, h.generation⟩
  | bookkeeping => exact ⟨h.passed, h.window, h.generation⟩

theorem Edits.accounted (hdb : db.Consistent) (hedits : Edits rules db db') (h : db.Accounted) :
    db'.Accounted := by
  induction hedits with
  | refl => exact h
  | tail hchain hedit ih => exact hedit.accounted (Edits.consistent hdb hchain) ih

/-! ## Deliveries of one mailbox -/

namespace Db

variable {jobId : Text} {scope : Text → Prop} {mailboxId : Nat}

/-- No merge made between two databases has the mailbox as its source or its target. -/
def MergesAvoid (db db' : Db) (mailboxId : Nat) : Prop :=
  ∀ call ∈ db'.merges.drop db.merges.length, call.source ≠ mailboxId ∧ call.target ≠ mailboxId

instance (db db' : Db) (mailboxId : Nat) : Decidable (db.MergesAvoid db' mailboxId) :=
  inferInstanceAs (Decidable (∀ call ∈ _, _))

/-- The deliveries of a set are in a mailbox. -/
def OfMailbox (db : Db) (mailboxId : Nat) (scope : Text → Prop) : Prop :=
  ∀ d ∈ db.deliveries, scope d.id → d.mailboxId = mailboxId

theorem MergesAvoid.of_eq (h : db'.merges = db.merges) : db.MergesAvoid db' mailboxId := by
  intro call hcall
  rw [h, List.drop_length] at hcall
  cases hcall

/-- An edit that is no merge and leaves deliveries in their mailboxes. -/
theorem OfMailbox.of_rows (h : db.OfMailbox mailboxId scope) (hmerges : db'.merges = db.merges)
    (hrows : ∀ d' ∈ db'.deliveries, (∃ d ∈ db.deliveries, d.id = d'.id ∧
      d.mailboxId = d'.mailboxId) ∨ ¬scope d'.id) :
    db'.OfMailbox mailboxId scope ∧ db.MergesSpare db' scope := by
  constructor
  · intro d' hd' hscope
    rcases hrows d' hd' with ⟨d, hd, hid, hbox⟩ | hnot
    · exact hbox.symm.trans (h d hd (hid ▸ hscope))
    · exact absurd hscope hnot
  · intro call hcall
    rw [hmerges, List.drop_length] at hcall
    cases hcall

theorem OfMailbox.softDeleteWhere (h : db.OfMailbox mailboxId scope) {p : DeliveryRow → Bool}
    {deletedAt : Timestamp} (hdeliveries : db'.deliveries = (db.softDeleteWhere p deletedAt).deliveries)
    (hmerges : db'.merges = db.merges) :
    db'.OfMailbox mailboxId scope ∧ db.MergesSpare db' scope := by
  refine h.of_rows hmerges ?_
  intro d' hd'
  rw [hdeliveries] at hd'
  obtain ⟨d, hd, rfl⟩ := mem_updateWhere.mp hd'
  refine .inl ⟨d, hd, ?_⟩
  split
  · exact ⟨rfl, rfl⟩
  · exact ⟨rfl, rfl⟩

/-- A merge of other mailboxes. -/
theorem OfMailbox.mergeDeliveries (h : db.OfMailbox mailboxId scope) {read : Text → Text}
    {source target : Nat} (hsource : source ≠ mailboxId) (htarget : target ≠ mailboxId) :
    (db.mergeDeliveries read source target).OfMailbox mailboxId scope ∧
      db.MergesSpare (db.mergeDeliveries read source target) scope := by
  constructor
  · intro d' hd' hscope
    obtain ⟨d, hd, hrow⟩ := List.mem_filterMap.mp hd'
    rw [(mergeRow_identity hrow).2.1] at hscope
    have hbox := h d hd hscope
    obtain ⟨ht, -, -, -⟩ | ⟨hs, -, -, -⟩ | ⟨-, -, rfl⟩ := mergeRow_cases hrow
    · exact absurd (ht.symm.trans hbox) htarget
    · exact absurd (hs.symm.trans hbox) hsource
    · exact hbox
  · intro call hcall id hid hscope
    have heq : call = ⟨source, target, (db.deliveries.filter
        (db.isStamped read source target)).map DeliveryRow.id⟩ := by
      simpa [Db.mergeDeliveries] using hcall
    rw [heq] at hid
    obtain ⟨d, hd, rfl⟩ := List.mem_map.mp hid
    obtain ⟨hd, hstamped⟩ := List.mem_filter.mp hd
    have hbox := h d hd hscope
    unfold isStamped at hstamped
    split at hstamped
    · cases hstamped
    · simp only [Bool.and_eq_true, Bool.or_eq_true, decide_eq_true_iff] at hstamped
      rcases hstamped.2 with hs | ⟨ht, -⟩
      · exact hsource (hs.symm.trans hbox)
      · exact htarget (ht.symm.trans hbox)

end Db

variable {jobId : Text} {scope : Text → Prop} {mailboxId : Nat}

theorem Edit.ofMailbox (hnew : ∀ id messageId, rules.newMail (.delivery id messageId) → ¬scope id)
    (hedit : Edit rules db db') (havoid : db.MergesAvoid db' mailboxId)
    (h : db.OfMailbox mailboxId scope) :
    db'.OfMailbox mailboxId scope ∧ db.MergesSpare db' scope := by
  cases hedit with
  | addMailbox hins =>
    obtain ⟨-, -, rfl, rfl⟩ := insertMailbox_ok hins
    exact h.of_rows rfl fun d hd => .inl ⟨d, hd, rfl, rfl⟩
  | setIdentity _ _ hupd =>
    obtain ⟨-, -, rfl⟩ := updateMailboxIdentity_ok hupd
    exact h.of_rows rfl fun d hd => .inl ⟨d, hd, rfl, rfl⟩
  | @mergeDeliveries read source target _ _ =>
    obtain ⟨hsource, htarget⟩ := havoid ⟨source, target, (db.deliveries.filter
      (db.isStamped read source target)).map DeliveryRow.id⟩ (by simp [Db.mergeDeliveries])
    exact h.mergeDeliveries hsource htarget
  | addDelivery hid _ _ =>
    refine h.of_rows rfl ?_
    intro d hd
    rcases List.mem_append.mp hd with hd | hd
    · exact .inl ⟨d, hd, rfl, rfl⟩
    · rw [List.mem_singleton.mp hd]
      exact .inr (hnew _ _ hid)
  | softDelete => exact h.softDeleteWhere rfl rfl
  | dropDeliveries => exact h.of_rows rfl fun d hd => .inl ⟨d, List.mem_of_mem_filter hd, rfl, rfl⟩
  | dropMessages => exact h.of_rows rfl fun d hd => .inl ⟨d, List.mem_of_mem_filter hd, rfl, rfl⟩
  | createJob _ hjob =>
    obtain ⟨mailbox, -, -, ⟨job, -, -, -, -, rfl⟩ | ⟨-, -, -, rfl⟩⟩ :=
      createOrResumeBulkDeleteJob_ok hjob
    · exact h.of_rows rfl fun d hd => .inl ⟨d, hd, rfl, rfl⟩
    · exact h.of_rows rfl fun d hd => .inl ⟨d, hd, rfl, rfl⟩
  | processJob hjob =>
    obtain ⟨job, -, -, -, ⟨-, rfl⟩ | ⟨-, rfl⟩⟩ := processBulkDeleteJobBatch_ok hjob
    · exact h.of_rows rfl fun d hd => .inl ⟨d, hd, rfl, rfl⟩
    · refine h.softDeleteWhere (advanceBulkDeleteJob_deliveries _ _ _) ?_
      unfold advanceBulkDeleteJob
      dsimp only
      split
      · rfl
      · rfl
  | addMessage hmsg _ =>
    obtain ⟨-, rfl⟩ := insertMessage_ok hmsg
    exact h.of_rows rfl fun d hd => .inl ⟨d, hd, rfl, rfl⟩
  | addAttachment hatt =>
    obtain ⟨-, -, rfl⟩ := insertAttachment_ok hatt
    exact h.of_rows rfl fun d hd => .inl ⟨d, hd, rfl, rfl⟩
  | setColumns _ => exact h.of_rows rfl fun d hd => .inl ⟨d, hd, rfl, rfl⟩
  | dropMailboxes _ => exact h.of_rows rfl fun d hd => .inl ⟨d, hd, rfl, rfl⟩
  | failJob => exact h.of_rows rfl fun d hd => .inl ⟨d, hd, rfl, rfl⟩
  | setDomains _ _ _ _ => exact h.of_rows rfl fun d hd => .inl ⟨d, hd, rfl, rfl⟩
  | bookkeeping => exact h.of_rows rfl fun d hd => .inl ⟨d, hd, rfl, rfl⟩

/-- Both halves of a chain avoid what the chain avoids. -/
theorem Db.MergesAvoid.split {mid : Db} (h : db.MergesAvoid db' mailboxId)
    (hmid : db.merges <+: mid.merges) (hlast : mid.merges <+: db'.merges) :
    db.MergesAvoid mid mailboxId ∧ mid.MergesAvoid db' mailboxId := by
  constructor
  · intro call hcall
    obtain ⟨calls, hcalls⟩ := hlast
    refine h call ?_
    rw [← hcalls, List.drop_append_of_le_length hmid.length_le]
    exact List.mem_append_left _ hcall
  · intro call hcall
    exact h call ((List.drop_subset_drop_left _ hmid.length_le) hcall)

/-- A job keeps a set of deliveries of a mailbox covered while no merge takes part in the mailbox. -/
theorem Edits.tracked (hdb : db.Consistent)
    (hnew : ∀ id messageId, rules.newMail (.delivery id messageId) → ¬scope id)
    (hedits : Edits rules db db') (havoid : db.MergesAvoid db' mailboxId)
    (h : db.OfMailbox mailboxId scope) (hcovered : db.ScopeCovered jobId scope) :
    db'.OfMailbox mailboxId scope ∧ db'.ScopeCovered jobId scope := by
  induction hedits with
  | refl => exact ⟨h, hcovered⟩
  | tail hchain hedit ih =>
    obtain ⟨hfirst, hlast⟩ := havoid.split (Edits.merges_prefix hchain) hedit.merges_prefix
    obtain ⟨hin, hcov⟩ := ih hfirst
    obtain ⟨hin', hspare⟩ := hedit.ofMailbox hnew hlast hin
    exact ⟨hin', hedit.covered (Edits.consistent hdb hchain) hnew hspare hcov⟩

end RapidInbox

import RapidInbox.Store.SummaryOps

/-!
# Summaries in a history

Replays, deletions and retention recompute the mailboxes they name.  With the operations of the
other modules, every history keeps the summaries exact as long as accepted messages arrive last and
retention batches name the mailboxes their deliveries are in.
-/

namespace RapidInbox

open Table Relation

namespace Db

variable {db db' : Db} {dirty : Nat → Prop}

/-! ## Replayed receipts -/

theorem insertDomain_sameRows {preferred : Option Nat} {root : Text} {policy : DomainPolicySnapshot}
    {domainId : Nat} (h : db.insertDomain preferred root policy = .ok (domainId, db')) (id : Nat) :
    SummaryFrame db db' id := by
  obtain ⟨-, -, rfl⟩ := insertDomain_ok h
  exact ⟨fun b hb hid => ⟨b, hb, hid, rfl, rfl⟩, rfl, fun h => h⟩

theorem recoveryCandidate_exact {m : DomainMatch} {address : Text} {found : Option Nat}
    (hexact : db.ExactExcept dirty) (h : db.recoveryCandidate m address = .ok (found, db')) :
    db'.ExactExcept dirty := by
  unfold recoveryCandidate at h
  split at h
  · cases h
    exact hexact
  · split at h
    · split at h
      · cases h
      · rename_i hpromote
        cases h
        exact promoteMailboxOwnership_exact hexact hpromote
    · cases h
      exact hexact

theorem recoveryCandidate_consistent (hdb : db.Consistent) {m : DomainMatch} {address : Text}
    {found : Option Nat} (h : db.recoveryCandidate m address = .ok (found, db')) :
    db'.Consistent := by
  have hedits : Edits (idRules (fun _ => True) fun _ => True) db db' :=
    (recoveryCandidate_edits (fun _ _ _ _ _ => trivial) h).1
  exact Edits.consistent hdb hedits

theorem recoveryMailbox_exact (hdb : db.Consistent) {m : DomainMatch} {address : Text}
    {receivedAt : Timestamp} {id : Nat} (hexact : db.ExactExcept dirty)
    (h : db.recoveryMailbox m address receivedAt = .ok (id, db')) : db'.ExactExcept dirty := by
  unfold recoveryMailbox at h
  dsimp only at h
  split at h
  · cases h
  · rename_i hfirst
    cases h
    exact recoveryCandidate_exact hexact hfirst
  · rename_i db₁ hfirst
    have hexact₁ := recoveryCandidate_exact hexact hfirst
    have hdb₁ := recoveryCandidate_consistent hdb hfirst
    split at h
    · cases h
    · rename_i hsecond
      cases h
      split at hsecond
      · cases hsecond
      · exact recoveryCandidate_exact hexact₁ hsecond
    · rename_i db₂ hsecond
      have hstep : db₂.ExactExcept dirty ∧ db₂.Consistent := by
        split at hsecond
        · cases hsecond
          exact ⟨hexact₁, hdb₁⟩
        · exact ⟨recoveryCandidate_exact hexact₁ hsecond,
            recoveryCandidate_consistent hdb₁ hsecond⟩
      split at h
      · cases h
        exact hstep.1
      · refine hstep.1.step ?_
        intro x hx
        by_cases hid : x = id
        · subst hid
          exact .inr (insertMailbox_exactAt hstep.2 h)
        · exact .inl ⟨hx, insertMailbox_frame h hid⟩

theorem ensureRecoveryMailboxRecord_exact {A : AddressOps} (hdb : db.Consistent)
    {r : RecoveryRecipient} {receivedAt : Timestamp} {id : Nat} (hexact : db.ExactExcept dirty)
    (h : db.ensureRecoveryMailboxRecord A r receivedAt = .ok (id, db')) : db'.ExactExcept dirty := by
  unfold ensureRecoveryMailboxRecord at h
  split at h
  · cases h
  · rename_i domainId db₁ hdomain
    split at h
    · cases h
    · rcases (ensureRecoveryDomainRecord_ok hdomain).1 with rfl | ⟨preferred, policy, hins⟩
      · exact recoveryMailbox_exact hdb hexact h
      · have hedit : Edit (idRules (fun _ => True) fun _ => True) db db₁ :=
          insertDomain_edit hdb (fun _ _ => trivial) hins
        exact recoveryMailbox_exact (hedit.consistent hdb)
          (hexact.frame fun x _ => insertDomain_sameRows hins x) h

/-- A replayed recipient leaves its mailbox to be recomputed. -/
theorem recoverRecipient_exact {A : AddressOps} (hdb : db.Consistent) {f : RecoveryManifest}
    {deliveryId : Text} {r : RecoveryRecipient} {id n : Nat} (hexact : db.ExactExcept dirty)
    (h : db.recoverRecipient A f deliveryId r = .ok (id, n, db')) :
    db'.ExactExcept fun x => dirty x ∨ x = id := by
  unfold recoverRecipient at h
  split at h
  · cases h
  · rename_i mailboxId db₁ hbox
    have hexact₁ := ensureRecoveryMailboxRecord_exact hdb hexact hbox
    split at h
    · cases h
    · split at h
      · cases h
      · rename_i hins
        cases h
        unfold insertDeliveryOrIgnore at hins
        split at hins
        · cases hins
          exact hexact₁.weaken fun _ => .inl
        · split at hins
          · cases hins
            refine hexact₁.step ?_
            intro x hx
            rw [not_or] at hx
            exact .inl ⟨hx.1, addDelivery_frame hx.2⟩
          · cases hins

theorem recoverRecipients_exact {A : AddressOps} {f : RecoveryManifest}
    {recipients : List (Text × RecoveryRecipient)} {ids : List Nat} {n : Nat} (hA : A.Lawful)
    (hdb : db.Consistent) (hexact : db.ExactExcept dirty)
    (h : recoverRecipients A f recipients db = .ok (ids, n, db')) :
    db'.ExactExcept fun x => dirty x ∨ x ∈ ids := by
  induction recipients generalizing db ids n dirty with
  | nil =>
    cases h
    exact hexact.weaken fun _ => .inl
  | cons x rest ih =>
    obtain ⟨deliveryId, r⟩ := x
    unfold recoverRecipients at h
    split at h
    · cases h
    · rename_i mailboxId n₁ db₁ hone
      split at h
      · cases h
      · rename_i ids' n' db₂ hloop
        cases h
        have hedits : Edits (serviceRules (fun _ => True) fun _ => True) db db₁ :=
          recoverRecipient_edits hA hdb trivial trivial hone
        refine (ih (Edits.consistent hdb hedits) (recoverRecipient_exact hdb hexact hone)
          hloop).weaken ?_
        rintro y ((hy | rfl) | hy)
        · exact .inl hy
        · exact .inr List.mem_cons_self
        · exact .inr (List.mem_cons_of_mem _ hy)

theorem refreshMailboxSummary_exact {id : Nat} (hexact : db.ExactExcept fun x => dirty x ∨ x = id)
    (h : db.refreshMailboxSummary id = .ok db') : db'.ExactExcept dirty := by
  unfold refreshMailboxSummary at h
  dsimp only at h
  split at h
  · cases h
    refine hexact.step ?_
    intro x hx
    by_cases hid : x = id
    · subst hid
      exact .inr (withSummary_exactAt (fun _ => rfl) fun _ => rfl)
    · exact .inl ⟨not_or.mpr ⟨hx, hid⟩, updateMailbox_frame (fun _ => rfl) hid⟩
  · split at h
    · cases h
    · rename_i hgone
      cases h
      refine hexact.step ?_
      intro x hx
      by_cases hid : x = id
      · subst hid
        refine .inr ?_
        intro b hb hbid
        have hnone := find?_key_none.mp (Option.not_isSome_iff_eq_none.mp hgone) b hb
        exact absurd hbid hnone
      · exact .inl ⟨not_or.mpr ⟨hx, hid⟩, .refl db x⟩

theorem refreshMailboxSummaries_exact {ids : List Nat} (hexact : db.ExactExcept fun x => x ∈ ids)
    (h : db.refreshMailboxSummaries ids = .ok db') : db'.ExactExcept fun _ => False := by
  induction ids generalizing db with
  | nil =>
    cases h
    exact hexact.weaken fun _ hx => by cases hx
  | cons id ids ih =>
    unfold refreshMailboxSummaries at h
    rw [List.foldlM_cons] at h
    cases hone : db.refreshMailboxSummary id with
    | error e =>
      rw [hone] at h
      cases h
    | ok db₁ =>
      rw [hone] at h
      refine ih (refreshMailboxSummary_exact (hexact.weaken ?_) hone) h
      intro x hx
      rcases List.mem_cons.mp hx with rfl | hx
      · exact .inr rfl
      · exact .inl hx

theorem insertMessageOrIgnore_sameMail {row : MessageRow} {inserted : Bool}
    (h : db.insertMessageOrIgnore row = .ok (inserted, db')) : db.SameMail db' := by
  unfold insertMessageOrIgnore at h
  split at h
  · cases h
    exact .refl db
  · split at h
    · cases h
    · rename_i hins
      cases h
      exact insertMessage_sameMail hins

theorem insertAttachmentsOrIgnore_sameMail {f : RecoveryManifest} {attachments : List RecoveryAttachment}
    (h : attachments.foldlM (fun db a => db.insertAttachmentOrIgnore (f.attachmentRow a)) db =
      .ok db') : db.SameMail db' := by
  refine Transition.foldlM_invariant ?_ (SameMail.refl db) h
  intro s hs a _ s' hone
  unfold insertAttachmentOrIgnore at hone
  split at hone
  · cases hone
    exact hs
  · exact hs.trans (insertAttachment_sameMail hone)

theorem recoveryMetric_sameMail (db : Db) (f : RecoveryManifest) (inserted : Bool) (n : Nat) :
    db.SameMail (db.recoveryMetric f inserted n) := by
  unfold recoveryMetric
  split
  · exact upsertMetric_sameMail _ _ _ _ _
  · exact .refl db

theorem applyRecoveryManifest_exact {A : AddressOps} (hA : A.Lawful) (hdb : db.Consistent)
    {f : RecoveryManifest} {deliveryIds : Nat → Text} (hexact : db.ExactExcept fun _ => False)
    (h : db.applyRecoveryManifest A f deliveryIds = .ok db') : db'.ExactExcept fun _ => False := by
  unfold applyRecoveryManifest at h
  split at h
  · cases h
    exact hexact
  · split at h
    · cases h
    · obtain ⟨inserted, db₁, ids, n, db₂, db₃, db₄, hmsg, hloop, hrefresh, hatt, rfl⟩ :=
        replayManifest_ok h
      have hedits₁ : Edits (idRules (fun _ => True) fun _ => True) db db₁ :=
        insertMessageOrIgnore_edits hmsg trivial
      have hexact₁ := hexact.frame fun id _ =>
        (insertMessageOrIgnore_sameMail hmsg).summaryFrame id
      have hexact₂ := (recoverRecipients_exact hA (Edits.consistent hdb hedits₁) hexact₁
        hloop).weaken fun x hx => hx.resolve_left id
      have hexact₃ := refreshMailboxSummaries_exact hexact₂ hrefresh
      have hexact₄ := hexact₃.frame fun id _ =>
        (insertAttachmentsOrIgnore_sameMail hatt).summaryFrame id
      exact hexact₄.frame fun id _ => (recoveryMetric_sameMail _ _ _ _).summaryFrame id

/-! ## Deletions -/

/-- A refreshed mailbox is exact, and the others keep their rows. -/
theorem refreshDeletionSummaries_row {p : MailboxRow → Bool} {now : Timestamp} {b' : MailboxRow}
    (hb' : b' ∈ (db.refreshDeletionSummaries p now).mailboxes) :
    (db.refreshDeletionSummaries p now).SummaryExact b' ∨ b' ∈ db.mailboxes ∧ p b' = false := by
  obtain ⟨b, hb, rfl⟩ := mem_updateWhere.mp hb'
  split
  · exact .inl ⟨rfl, rfl⟩
  · rename_i hp
    exact .inr ⟨hb, by simpa using hp⟩

/-- A soft delete changes the active deliveries of the mailboxes it selects from. -/
theorem activeIn_softDeleteWhere {p : DeliveryRow → Bool} {id : Nat} (deletedAt : Timestamp)
    (hp : ∀ d ∈ db.deliveries, d.mailboxId = id → d.status = .active → p d = false) :
    (db.softDeleteWhere p deletedAt).activeIn id = db.activeIn id := by
  have hlist (rows : List DeliveryRow)
      (hrows : ∀ d ∈ rows, d.mailboxId = id → d.status = .active → p d = false) :
      (updateWhere p (fun d => d.softDelete deletedAt) rows).filter
          (fun d => d.mailboxId = id && d.status = .active) =
        rows.filter fun d => d.mailboxId = id && d.status = .active := by
    induction rows with
    | nil => rfl
    | cons d rows ih =>
      have htail := ih fun e he => hrows e (List.mem_cons_of_mem _ he)
      unfold updateWhere at htail ⊢
      rw [List.map_cons, List.filter_cons, List.filter_cons, htail]
      cases hpd : p d with
      | false => rfl
      | true =>
        have hout : ¬(d.mailboxId = id ∧ d.status = .active) := by
          rintro ⟨hid, hactive⟩
          rw [hrows d List.mem_cons_self hid hactive] at hpd
          cases hpd
        simp only [if_true, DeliveryRow.softDelete]
        rw [if_neg (by simp), if_neg (by simpa using hout)]
  exact hlist db.deliveries hp

/-- The deletions of deliveries that recompute the mailboxes they were deleted from. -/
theorem softDelete_refresh_exact {p : DeliveryRow → Bool} {q : MailboxRow → Bool}
    {deletedAt now : Timestamp} (hexact : db.SummariesExact)
    (hq : ∀ b ∈ db.mailboxes, q b = false → ∀ d ∈ db.deliveries, d.mailboxId = b.id →
      d.status = .active → p d = false) :
    ((db.softDeleteWhere p deletedAt).refreshDeletionSummaries q now).SummariesExact := by
  intro b hb hjob
  rcases refreshDeletionSummaries_row hb with hnew | ⟨hold, hqb⟩
  · exact hnew
  · have hb₀ := hexact b hold hjob
    have hactive := activeIn_softDeleteWhere deletedAt (hq b hold hqb)
    refine ⟨?_, ?_⟩
    · rw [hb₀.count, ← hactive]
      rfl
    · rw [hb₀.latest, ← hactive]
      rfl

theorem deleteRequestedDeliveries_exact {ids : List Text} {deletedAt : Timestamp}
    (hexact : db.SummariesExact) : (db.deleteRequestedDeliveries ids deletedAt).SummariesExact := by
  unfold deleteRequestedDeliveries
  split
  · refine softDelete_refresh_exact hexact ?_
    intro b _ hq d hd hid _
    rw [Bool.and_eq_false_iff]
    refine .inr ?_
    rw [List.any_eq_false] at hq
    by_contra hmem
    rw [Bool.not_eq_false] at hmem
    -- the deleted delivery still names its mailbox
    refine hq _ (mem_updateWhere.mpr ⟨d, hd, rfl⟩) ?_
    split
    · simp [DeliveryRow.softDelete, hid, of_decide_eq_true hmem]
    · simp [hid, of_decide_eq_true hmem]
  · exact hexact

theorem softDeleteMailboxDeliveries_exact {mailboxId : Nat} {ids : List Text}
    {deletedAt now : Timestamp} (hexact : db.SummariesExact)
    (h : db.softDeleteMailboxDeliveries mailboxId ids deletedAt now = .ok db') :
    db'.SummariesExact := by
  unfold softDeleteMailboxDeliveries at h
  split at h
  · cases h
  · split at h
    · cases h
      exact hexact
    · cases h
      refine softDelete_refresh_exact hexact ?_
      intro b _ hq d _ hid _
      have hne : d.mailboxId ≠ mailboxId := fun heq => by simp [← hid, heq] at hq
      simp [hne]

/-! ## Bulk-delete jobs -/

/-- An update of the jobs that makes none of a mailbox complete keeps its flag. -/
theorem hasIncompleteJob_of_update {p : BulkDeleteJob → Bool} {f : BulkDeleteJob → BulkDeleteJob}
    {rows : List BulkDeleteJob} {id : Nat}
    (hf : ∀ j ∈ rows, p j → j.mailboxId = id → j.incomplete →
      (f j).mailboxId = id ∧ (f j).incomplete)
    (h : (updateWhere p f rows).any (fun j => j.mailboxId = id && j.incomplete) = false) :
    rows.any (fun j => j.mailboxId = id && j.incomplete) = false := by
  rw [List.any_eq_false] at h ⊢
  intro j hj hinc
  rw [Bool.and_eq_true, decide_eq_true_iff] at hinc
  refine h _ (mem_updateWhere.mpr ⟨j, hj, rfl⟩) ?_
  split
  · rename_i hp
    obtain ⟨hbox, hinc'⟩ := hf j hj hp hinc.1 hinc.2
    simp [hbox, hinc']
  · simp [hinc.1, hinc.2]

theorem startBulkDeleteJob_exact {jobId : Text} {mailbox : MailboxRow} {deletedAt : Timestamp}
    (hexact : db.SummariesExact) :
    (db.startBulkDeleteJob jobId mailbox deletedAt).SummariesExact := by
  intro b' hb' hjob
  obtain ⟨b, hb, rfl⟩ := mem_updateWhere.mp hb'
  have hold : db.hasIncompleteJob b.id = false := by
    have hid : (if (fun b : MailboxRow => decide (b.id = mailbox.id)) b = true then
        { b with bulkDeleteGeneration := mailbox.bulkDeleteGeneration + 1 } else b).id = b.id := by
      split
      · rfl
      · rfl
    rw [hid] at hjob
    rw [hasIncompleteJob, List.any_eq_false] at hjob ⊢
    intro j hj hinc
    refine hjob j (List.mem_append_left _ (List.mem_filter.mpr ⟨hj, ?_⟩)) hinc
    have hne : j.status ≠ .succeeded := by
      intro hdone
      simp [BulkDeleteJob.incomplete, hdone] at hinc
    simp [hne]
  have hb₀ := hexact b hb hold
  split
  · exact ⟨hb₀.count, hb₀.latest⟩
  · exact ⟨hb₀.count, hb₀.latest⟩

theorem markBulkDeleteJobFailed_exact {jobId : Text} (hexact : db.SummariesExact) :
    (db.markBulkDeleteJobFailed jobId).SummariesExact := by
  intro b hb hjob
  have hold : db.hasIncompleteJob b.id = false := by
    refine hasIncompleteJob_of_update ?_ hjob
    intro j _ _ hbox hinc
    split
    · exact ⟨hbox, hinc⟩
    · exact ⟨hbox, rfl⟩
  have hb₀ := hexact b hb hold
  exact ⟨hb₀.count, hb₀.latest⟩

theorem advanceBulkDeleteJob_exact (hdb : db.Consistent) {job : BulkDeleteJob}
    (hmem : job ∈ db.bulkDeleteJobs) {batchSize : Nat} {now : Timestamp}
    (hexact : db.SummariesExact) :
    (db.advanceBulkDeleteJob job batchSize now).SummariesExact := by
  have hpage (b : MailboxRow) (hne : b.id ≠ job.mailboxId) :
      ∀ d ∈ db.deliveries, d.mailboxId = b.id → d.status = .active →
        inPage job (db.bulkDeletePage job batchSize) d = false := by
    intro d _ hid _
    have hbox : d.mailboxId ≠ job.mailboxId := fun heq => hne (hid.symm.trans heq)
    simp [inPage, hbox]
  -- the jobs of the other mailboxes are not changed
  have hjobs (id : Nat) (hne : id ≠ job.mailboxId) (f : BulkDeleteJob → BulkDeleteJob)
      (h : (updateWhere (fun j => j.id = job.id) f db.bulkDeleteJobs).any
        (fun j => j.mailboxId = id && j.incomplete) = false) : db.hasIncompleteJob id = false := by
    refine hasIncompleteJob_of_update ?_ h
    intro j hj hp hbox _
    rw [hdb.job_ids.eq_of_mem hj hmem (of_decide_eq_true hp)] at hbox
    exact absurd hbox.symm hne
  unfold advanceBulkDeleteJob
  dsimp only
  split
  · intro b hb hjob
    rcases refreshDeletionSummaries_row hb with hnew | ⟨hold, hqb⟩
    · exact ⟨hnew.count, hnew.latest⟩
    · have hne : b.id ≠ job.mailboxId := by simpa using hqb
      have hb₀ := hexact b hold (hjobs b.id hne _ hjob)
      have hactive := activeIn_softDeleteWhere job.deletedAt (hpage b hne)
      exact ⟨hb₀.count.trans (by rw [← hactive]; rfl), hb₀.latest.trans (by rw [← hactive]; rfl)⟩
  · intro b hb hjob
    by_cases hid : b.id = job.mailboxId
    · -- the job is still there, running
      rw [hasIncompleteJob, List.any_eq_false] at hjob
      refine absurd ?_ (hjob _ (mem_updateWhere.mpr ⟨job, hmem, rfl⟩))
      simp [hid, BulkDeleteJob.incomplete]
    · have hb₀ := hexact b hb (hjobs b.id hid _ hjob)
      have hactive := activeIn_softDeleteWhere job.deletedAt (hpage b hid)
      exact ⟨hb₀.count.trans (by rw [← hactive]; rfl), hb₀.latest.trans (by rw [← hactive]; rfl)⟩

/-! ## Retention -/

/-- Every active delivery that a retention batch removes is in a mailbox the batch names. -/
def SnapshotCurrent (db : Db) (now : Timestamp) (batch : List RetentionEntry) : Prop :=
  ∀ d ∈ db.deliveries, d.status = .active → d.id ∈ (db.revalidate now batch).map RetentionEntry.id →
    d.mailboxId ∈ (db.revalidate now batch).map RetentionEntry.mailboxId

/-- The messages a batch deletes have no delivery left. -/
theorem expireDeliveries_deliveries {now : Timestamp} {batch : List RetentionEntry} :
    (db.expireDeliveries now batch).deliveries = db.deliveries.filter fun d =>
      decide (d.id ∉ (db.revalidate now batch).map RetentionEntry.id) := by
  unfold expireDeliveries deleteMessages
  dsimp only
  apply List.filter_eq_self.mpr
  intro d hd
  rw [decide_eq_true_iff]
  intro horphan
  have hnone := (List.mem_filter.mp horphan).2
  rw [Bool.not_eq_true', List.any_eq_false] at hnone
  exact hnone d hd (by simp)

theorem deleteStaleEmptyMailboxes_exact {cutoff : Timestamp} {limit : Nat}
    (hexact : db.SummariesExact) : (db.deleteStaleEmptyMailboxes cutoff limit).SummariesExact := by
  intro b hb hjob
  obtain ⟨hmem, hkeep⟩ := List.mem_filter.mp hb
  have hold : db.hasIncompleteJob b.id = false := by
    rw [hasIncompleteJob, List.any_eq_false] at hjob ⊢
    intro j hj hinc
    refine hjob j (List.mem_filter.mpr ⟨hj, ?_⟩) hinc
    rw [Bool.and_eq_true, decide_eq_true_iff] at hinc
    rw [hinc.1]
    exact hkeep
  have hb₀ := hexact b hmem hold
  exact ⟨hb₀.count, hb₀.latest⟩

theorem expireDeliveryBatch_exact {now refreshedAt cutoff : Timestamp} {limit : Nat}
    {batch : List RetentionEntry} (hcurrent : db.SnapshotCurrent now batch)
    (hexact : db.SummariesExact) :
    (db.expireDeliveryBatch now refreshedAt cutoff limit batch).SummariesExact := by
  refine deleteStaleEmptyMailboxes_exact ?_
  intro b hb hjob
  rcases refreshDeletionSummaries_row hb with hnew | ⟨hold, hqb⟩
  · exact hnew
  · have hb₀ := hexact b hold hjob
    have hnot : b.id ∉ (db.revalidate now batch).map RetentionEntry.mailboxId := by
      simpa using hqb
    have hactive : (db.expireDeliveries now batch).activeIn b.id = db.activeIn b.id := by
      unfold activeIn
      rw [expireDeliveries_deliveries, List.filter_filter]
      apply List.filter_congr
      intro d hd
      by_cases hrow : d.mailboxId = b.id ∧ d.status = .active
      · have hkept : d.id ∉ (db.revalidate now batch).map RetentionEntry.id :=
          fun hin => hnot (hrow.1 ▸ hcurrent d hd hrow.2 hin)
        rw [decide_eq_true hkept, Bool.and_true]
      · have hfalse : (decide (d.mailboxId = b.id) && decide (d.status = .active)) = false := by
          simpa using hrow
        rw [hfalse, Bool.false_and]
    exact ⟨hb₀.count.trans (by rw [← hactive]; rfl), hb₀.latest.trans (by rw [← hactive]; rfl)⟩

/-! ## Domains and settings -/

/-- The tables that summaries are computed from. -/
theorem SummaryFrame.of_tables (h : db'.mailboxes = db.mailboxes ∧
    db'.deliveries = db.deliveries ∧ db'.bulkDeleteJobs = db.bulkDeleteJobs) (id : Nat) :
    SummaryFrame db db' id := by
  obtain ⟨hbox, hdel, hjobs⟩ := h
  refine ⟨fun b hb hid => ⟨b, hbox ▸ hb, hid, rfl, rfl⟩, ?_, ?_⟩
  · unfold activeIn
    rw [hdel]
  · unfold hasIncompleteJob
    rw [hjobs]
    exact fun h => h

theorem createRehomeJob_frame {jobId : Text} {candidate : Option Text}
    (h : db.createRehomeJob jobId candidate = .ok db') (id : Nat) : SummaryFrame db db' id := by
  unfold createRehomeJob at h
  split at h
  · cases h
  · cases h
    refine .of_tables ?_ id
    exact ⟨rfl, rfl, rfl⟩

theorem createDomain_frame {A : AddressOps} {root jobId : Text} {payload : DomainPayload}
    (h : db.createDomain A root jobId payload = .ok db') (id : Nat) : SummaryFrame db db' id := by
  unfold createDomain at h
  split at h
  · cases h
  · dsimp only at h
    split at h
    · cases h
    · rename_i hins
      split at h
      · exact (insertDomain_sameRows hins id).trans (createRehomeJob_frame h id)
      · cases h
        exact insertDomain_sameRows hins id

theorem updateDomain_frame {A : AddressOps} {domainId : Nat} {jobId : Text} {payload : DomainPayload}
    (h : db.updateDomain A domainId jobId payload = .ok db') (id : Nat) :
    SummaryFrame db db' id := by
  obtain ⟨row, -, root, policy, tombstones, written, -, -, -, -, rfl, rfl | hjob⟩ := updateDomain_ok h
  · refine .of_tables ?_ id
    exact ⟨rfl, rfl, rfl⟩
  · refine SummaryFrame.trans ?_ (createRehomeJob_frame hjob id)
    refine .of_tables ?_ id
    exact ⟨rfl, rfl, rfl⟩

theorem deleteDomain_frame {domainId : Nat} (h : db.deleteDomain domainId = .ok db') (id : Nat) :
    SummaryFrame db db' id := by
  unfold deleteDomain at h
  split at h
  · cases h
  · split at h
    · cases h
    · split at h
      · cases h
      · cases h
        refine .of_tables ?_ id
        exact ⟨rfl, rfl, rfl⟩

theorem syncCatchAllPolicy_frame {enabled publicWeb publicApi : Bool} {retentionDays : Option Int}
    {size : Int} (h : db.syncCatchAllPolicy enabled publicWeb publicApi retentionDays size = .ok db')
    (id : Nat) : SummaryFrame db db' id := by
  unfold syncCatchAllPolicy at h
  split at h
  · split at h
    · cases h
      exact .refl _ id
    · split at h
      · cases h
      · rename_i hins
        cases h
        exact insertDomain_sameRows hins id
  · cases h
    refine .of_tables ?_ id
    exact ⟨rfl, rfl, rfl⟩

theorem updateMailboxFlags_frame {mailboxId : Nat} {publicEnabled isHidden : Option Bool}
    {notes : Option (Option Text)}
    (h : db.updateMailboxFlags mailboxId publicEnabled isHidden notes = .ok db') (id : Nat) :
    SummaryFrame db db' id := by
  unfold updateMailboxFlags at h
  split at h
  · cases h
  · cases h
    refine updateMailbox_frame_all ?_ ?_ ?_ id
    · exact fun _ => rfl
    · exact fun _ => rfl
    · exact fun _ => rfl

/-- A mailbox that is created without a message is empty. -/
theorem ensureMailboxExists_exact {A : AddressOps} {m : DomainMatch} {now : Timestamp}
    (hdb : db.Consistent) (hexact : db.ExactExcept dirty)
    (h : db.ensureMailboxExists A m now = .ok db') : db'.ExactExcept dirty := by
  unfold ensureMailboxExists at h
  split at h
  · cases h
  · split at h
    · cases h
    · rename_i hfind
      cases h
      exact findOrRehomeMailbox_exact hexact hfind
    · rename_i hfind
      split at h
      · cases h
      · rename_i mailboxId db₂ hins
        cases h
        obtain ⟨-, -, hcase⟩ := findOrRehomeMailbox_ok hdb hfind
        obtain ⟨-, -, rfl⟩ := hcase.resolve_right fun ⟨_, _, _, hsome⟩ => by cases hsome
        refine hexact.step ?_
        intro x hx
        by_cases hid : x = mailboxId
        · subst hid
          exact .inr (insertMailbox_exactAt hdb hins)
        · exact .inl ⟨hx, insertMailbox_frame hins hid⟩

end Db

/-! ## Histories -/

open Db

variable {db db' : Db}

/-- Accepted messages arrive last, and retention batches name the mailboxes of their deliveries. -/
def StoreOp.SummaryReady (E : StoreEnv) (db : Db) : StoreOp → Prop
  | .accept request => db.ArrivesLast (pyAddressOps E.py) request
  | .expire now _ _ _ batch => db.SnapshotCurrent now batch
  | _ => True

theorem StoreOp.transaction_exact {E : StoreEnv} {op : StoreOp} (hdb : db.Consistent)
    (hexact : db.SummariesExact) (hready : op.SummaryReady E db)
    (h : op.transaction E db = .ok db') : db'.SummariesExact := by
  have hclean := summariesExact_iff.mp hexact
  have hsame (hmail : ∀ id, SummaryFrame db db' id) : db'.SummariesExact :=
    summariesExact_iff.mpr (hclean.frame fun id _ => hmail id)
  cases op with
  | commit jobs => exact summariesExact_iff.mpr (BatchWriter.writeSqliteRecords_exact hdb hclean h)
  | accept request => exact summariesExact_iff.mpr (acceptMessage_exact hdb hclean hready h)
  | recover manifest ids =>
    exact summariesExact_iff.mpr
      (applyRecoveryManifest_exact (pyAddressOps_lawful E.py) hdb hclean h)
  | ensureMailbox m now => exact summariesExact_iff.mpr (ensureMailboxExists_exact hdb hclean h)
  | rehomeBatch jobId batchSize =>
    exact summariesExact_iff.mpr (processRehomeJobBatch_exact hclean h)
  | rehomeFailed jobId =>
    cases h
    refine hsame (.of_tables ?_)
    exact ⟨rfl, rfl, rfl⟩
  | createBulkDelete jobId mailboxId deletedAt =>
    have hmap : (db.createOrResumeBulkDeleteJob jobId mailboxId deletedAt).map Prod.snd =
        .ok db' := h
    cases hjob : db.createOrResumeBulkDeleteJob jobId mailboxId deletedAt with
    | error e =>
      rw [hjob] at hmap
      cases hmap
    | ok result =>
      obtain ⟨id, db₁⟩ := result
      rw [hjob] at hmap
      cases hmap
      obtain ⟨mailbox, -, -, ⟨job, -, -, -, -, rfl⟩ | ⟨-, -, -, rfl⟩⟩ :=
        createOrResumeBulkDeleteJob_ok hjob
      · exact hexact
      · exact startBulkDeleteJob_exact hexact
  | bulkDeleteBatch jobId batchSize now =>
    obtain ⟨job, hmem, -, -, ⟨-, rfl⟩ | ⟨-, rfl⟩⟩ := processBulkDeleteJobBatch_ok h
    · exact hexact
    · exact advanceBulkDeleteJob_exact hdb hmem hexact
  | bulkDeleteFailed jobId =>
    cases h
    exact markBulkDeleteJobFailed_exact hexact
  | deleteDeliveries ids deletedAt =>
    cases h
    exact deleteRequestedDeliveries_exact hexact
  | deleteMailboxDeliveries mailboxId ids deletedAt now =>
    exact softDeleteMailboxDeliveries_exact hexact h
  | expire now refreshedAt cutoff limit batch =>
    cases h
    exact expireDeliveryBatch_exact hready hexact
  | updateMailbox mailboxId publicEnabled isHidden notes => exact hsame (updateMailboxFlags_frame h)
  | createDomain root jobId payload => exact hsame (createDomain_frame h)
  | updateDomain domainId jobId payload => exact hsame (updateDomain_frame h)
  | deleteDomain domainId => exact hsame (deleteDomain_frame h)
  | syncCatchAll enabled publicWeb publicApi retentionDays size =>
    exact hsame (syncCatchAllPolicy_frame h)

namespace Db

theorem exec_exact {E : StoreEnv} {op : StoreOp} (hdb : db.Consistent) (hexact : db.SummariesExact)
    (hready : op.SummaryReady E db) : (db.exec E op).SummariesExact := by
  unfold exec
  split
  · rename_i db' h
    exact op.transaction_exact hdb hexact hready h
  · exact hexact

/-- In every history whose accepted messages arrive last and whose retention batches name the
    mailboxes of their deliveries, the summaries are exact in every state. -/
theorem summaries_exact {E : StoreEnv} {start : Db} (hstart : start.Consistent)
    (hexact : start.SummariesExact) {ops : List StoreOp}
    (hready : Throughout E (fun db op => op.SummaryReady E db) start ops) :
    ∀ before after, ops = before ++ after → (start.run E before).SummariesExact := by
  have hstep (db : Db) (op : StoreOp) (h : db.Consistent ∧ db.SummariesExact)
      (hop : op.SummaryReady E db) : (db.exec E op).Consistent ∧ (db.exec E op).SummariesExact :=
    ⟨exec_consistent h.1 op, exec_exact h.1 h.2 hop⟩
  intro before after hsplit
  exact (hready.invariant hstep ⟨hstart, hexact⟩ before after hsplit).2

/-- A message handed over by the Python service. -/
def sampleAccept (messageId deliveryId : String) (receivedAt : Timestamp) (m : DomainMatch) :
    AcceptRequest :=
  { messageId := messageId.toList
    smtpSessionId := none
    envelopeFrom := none
    receivedAt := receivedAt
    rawPath := rawMessagePath messageId.toList receivedAt
    rawSha256 := []
    rawSizeBytes := 0
    recipients := [⟨deliveryId.toList, m.localPart ++ '@' :: m.domainAscii, m⟩] }

/-- A request with one recipient, whose match is known. -/
theorem arrivesLast_single {A : AddressOps} {messageId deliveryId : String} {receivedAt : Timestamp}
    {m m₀ : DomainMatch}
    (hm₀ : db.matchActiveDomain A (m.localPart ++ '@' :: m.domainAscii) = .ok (some m₀))
    (h : ∀ b ∈ db.mailboxes, b.addressCanonical = m₀.addressCanonical →
      ∀ d ∈ db.activeIn b.id, d.deliveredAt ≤ receivedAt) :
    db.ArrivesLast A (sampleAccept messageId deliveryId receivedAt m) := by
  intro r hr m' hm'
  rw [List.mem_singleton.mp hr, hm₀] at hm'
  cases hm'
  exact h

/-- Messages from both writers, a deletion and a retention batch. -/
def mixedHistory : List StoreOp :=
  [.createDomain "example.com".toList "r1".toList
     { DomainPayload.unset with retentionDays := some (some 1) },
   .commit [sampleJob "m1" 10
     [sampleRecipient "d1" (sampleMatch 1 "example.com" "u" "example.com")]],
   .accept (sampleAccept "m2" "d2" 20 (sampleMatch 1 "example.com" "u" "example.com")),
   .deleteDeliveries ["d1".toList] 30,
   .accept (sampleAccept "m3" "d3" 40 (sampleMatch 1 "example.com" "u" "example.com")),
   .expire 86420 86420 0 10 [⟨"d2".toList, "m2".toList, 1, .active⟩]]

theorem mixedHistory_ready :
    Throughout .ascii (fun db op => op.SummaryReady .ascii db) empty mixedHistory := by
  refine ⟨trivial, trivial, ?_, trivial, ?_, ?_, trivial⟩
  · have hm : ((empty.exec .ascii mixedHistory[0]).exec .ascii mixedHistory[1]).matchActiveDomain
        (pyAddressOps StoreEnv.ascii.py) "u@example.com".toList =
          .ok (some (sampleMatch 1 "example.com" "u" "example.com")) := by
      decide +kernel
    exact arrivesLast_single hm (by decide +kernel)
  · have hm : (((((empty.exec .ascii mixedHistory[0]).exec .ascii mixedHistory[1]).exec .ascii
        mixedHistory[2]).exec .ascii mixedHistory[3])).matchActiveDomain
        (pyAddressOps StoreEnv.ascii.py) "u@example.com".toList =
          .ok (some (sampleMatch 1 "example.com" "u" "example.com")) := by
      decide +kernel
    exact arrivesLast_single hm (by decide +kernel)
  · unfold StoreOp.SummaryReady SnapshotCurrent
    decide +kernel

/-- One message is left after the history, and the summary says so. -/
theorem summaries_exact_mixed :
    (empty.run .ascii mixedHistory).mailboxes.map
        (fun b => (b.messageCount, b.latestMessageAt)) = [(1, some 40)] ∧
      (empty.run .ascii mixedHistory).SummariesExact := by
  refine ⟨by decide +kernel, ?_⟩
  exact summaries_exact empty_consistent (fun b hb => by cases hb) mixedHistory_ready mixedHistory []
    rfl

/-- A message that the service accepts after a later one has been committed. -/
def lateAccept : List StoreOp :=
  [.createDomain "example.com".toList "r1".toList .unset,
   .commit [sampleJob "m1" 20
     [sampleRecipient "d1" (sampleMatch 1 "example.com" "u" "example.com")]],
   .accept (sampleAccept "m2" "d2" 10 (sampleMatch 1 "example.com" "u" "example.com"))]

/-- A retention batch read before its delivery is merged into another mailbox. -/
def staleSnapshot : List StoreOp :=
  [.syncCatchAll true false false (some 1) 1000,
   .accept (sampleAccept "m1" "d1" 10 (sampleMatch 1 "*" "u+t" "example.com")),
   .createDomain "example.com".toList "r1".toList { DomainPayload.unset with
     plusAddressingMode := some .strip },
   .commit [sampleJob "m2" 86420
     [sampleRecipient "d2" (sampleMatch 2 "example.com" "u" "example.com")]],
   .commit [sampleJob "m3" 86430 [sampleRecipient "d3" (sampleMatch 1 "*" "u+t" "example.com")]],
   .expire 86410 86440 0 10 [⟨"d1".toList, "m1".toList, 1, .active⟩]]

/-- The late message takes the place of the latest one, and the old snapshot leaves the mailbox its
    delivery has moved to as it was. -/
theorem summaries_left_stale :
    ¬(empty.run .ascii lateAccept).SummariesExact ∧
      ¬(empty.run .ascii staleSnapshot).SummariesExact := by
  decide +kernel

end Db
end RapidInbox

import RapidInbox.Store.Landing
import RapidInbox.Store.SummaryRuns

/-!
# The replay of a manifest

`_apply_recovery_manifest` on the manifest of a job whose recipients were accepted under the current
rules.  It adds the deliveries that are missing and leaves those of other messages alone.
-/

namespace RapidInbox

open Table

/-- A manifest of a job, with or without the parsed message. -/
structure RecoveryManifest.Describes (f : RecoveryManifest) (job : MailJob) : Prop where
  messageId : f.messageId = job.messageId
  receivedAt : f.receivedAt = job.receivedAt
  rawPath : f.rawPath = job.rawPath
  recipients : f.recipients = .receipts (job.recipients.map RecipientDelivery.receipt)

namespace Db

variable {A B : AddressOps} {db db' : Db} {job : MailJob} {f : RecoveryManifest}

/-- What the replay of one or more recipients does to the mail. -/
structure Replayed (job : MailJob) (ids : List Text) (db db' : Db) : Prop where
  consistent : db'.Consistent
  mailOnly : db.MailOnly db'
  others : db'.deliveries.filter (fun d => d.messageId ≠ job.messageId) =
    db.deliveries.filter fun d => d.messageId ≠ job.messageId
  delivery_ids : ∀ d ∈ db'.deliveries, d.id ∈ ids ∨ ∃ e ∈ db.deliveries, e.id = d.id

theorem ensureRecoveryMailboxRecord_current (hA : A.Lawful) (hB : B.Lawful) (hdb : db.Consistent)
    (hnorm : db.RootsNormalized) {r : RecipientDelivery} (hcurrent : r.Current A db)
    (hagree : A.AgreeOn B r.rcptTo) {receivedAt : Timestamp} {mailboxId : Nat}
    (h : db.ensureRecoveryMailboxRecord B r.receipt receivedAt = .ok (mailboxId, db')) :
    db'.Consistent ∧ db.MailOnly db' ∧ db'.deliveries = db.deliveries ∧
      (∃ domainId, db'.Entry mailboxId r.domainMatch.addressCanonical domainId) ∧
      ∀ x address domainId, db.Entry x address domainId →
        ∃ domainId', db'.Entry x address domainId' := by
  have hcached := hcurrent.hasDomain
  obtain ⟨d, hd, hid, -⟩ := id hcached
  have hedits : Edits (serviceRules (fun _ => True) fun _ => True) db db' :=
    ensureRecoveryMailboxRecord_edits hB hdb trivial h
  rw [BatchWriter.ensureRecoveryMailboxRecord_eq hdb hcached
    (hcurrent.ownershipMatch_eq hA hB hnorm hagree)] at h
  have hmail : Edits (serviceRules (fun _ => True) fun _ => True) db db' ∧ db.MailOnly db' :=
    recoveryMailbox_edits (fun _ => hcached) h
  obtain ⟨id', db'', hbox, hdel, hentry, hentries⟩ :=
    recoveryMailbox_same hdb ⟨d, hd, hid⟩ receivedAt
  cases hbox.symm.trans h
  exact ⟨Edits.consistent hdb hedits, hmail.2, hdel, hentry, hentries⟩

/-- A delivery that is ignored is there already, if its id is new. -/
theorem insertDeliveryOrIgnore_ok {id messageId rcptTo : Text} {mailboxId n : Nat}
    {deliveredAt : Timestamp} {expiresAt : Option Timestamp} (hnew : ∀ d ∈ db.deliveries, d.id ≠ id)
    (h : db.insertDeliveryOrIgnore id messageId mailboxId rcptTo deliveredAt expiresAt =
      .ok (n, db')) :
    (∃ d ∈ db.deliveries, d.messageId = messageId ∧ d.mailboxId = mailboxId) ∧ db' = db ∨
      db' = db.addDelivery id messageId mailboxId rcptTo deliveredAt expiresAt
        (db.generationOf mailboxId) := by
  unfold insertDeliveryOrIgnore at h
  split at h
  · rename_i hconflict
    cases h
    have hid : (db.deliveries.any fun d => d.id = id) = false := by simpa using hnew
    refine .inl ⟨?_, rfl⟩
    unfold deliveryConflict at hconflict
    rw [hid] at hconflict
    simp only [Bool.false_eq_true, if_false] at hconflict
    split at hconflict
    · rename_i hkey
      simpa using hkey
    · cases hconflict
  · split at h
    · cases h
      exact .inr rfl
    · cases h

/-- One recipient of a replay. -/
theorem recoverRecipient_landing (hA : A.Lawful) (hB : B.Lawful) (hdb : db.Consistent)
    (hnorm : db.RootsNormalized) (hf : f.Describes job) {r : RecipientDelivery}
    (hr : r ∈ job.recipients) (hcurrent : r.Current A db) (hagree : A.AgreeOn B r.rcptTo)
    {done : List RecipientDelivery} (hlanding : Landing job done db) {deliveryId : Text}
    (hnew : ∀ d ∈ db.deliveries, d.id ≠ deliveryId) {mailboxId n : Nat}
    (h : db.recoverRecipient B f deliveryId r.receipt = .ok (mailboxId, n, db')) :
    Landing job (r :: done) db' ∧ Replayed job [deliveryId] db db' := by
  unfold recoverRecipient at h
  split at h
  · cases h
  · rename_i box db₁ hbox
    obtain ⟨hdb₁, hmail, hdel, ⟨owner, hentry⟩, hentries⟩ :=
      ensureRecoveryMailboxRecord_current hA hB hdb hnorm hcurrent hagree hbox
    have hopened : Landing job done db₁ := by
      refine hlanding.leavesAlone ⟨by rw [hdel], ?_⟩
      intro d hd hmsg b hb hid
      obtain ⟨domainId', b', hb', hid', haddr', -⟩ := hentries _ _ _ (Entry.of_mem hb)
      exact ⟨b', hb', hid'.trans hid, haddr'⟩
    split at h
    · cases h
    · rename_i expiresAt _
      split at h
      · cases h
      · rename_i n' db₂ hins
        cases h
        rw [hf.messageId] at hins
        have hedits : Edits (serviceRules (fun _ => True) fun _ => True) db₁ db' :=
          insertDeliveryOrIgnore_edits trivial hins
        have hdb' := Edits.consistent hdb₁ hedits
        obtain ⟨⟨d, hd, hmsg, hbox'⟩, rfl⟩ | rfl := insertDeliveryOrIgnore_ok (hdel ▸ hnew) hins
        · refine ⟨⟨hopened.active, hopened.placed, ?_⟩, hdb', hmail, by rw [hdel], ?_⟩
          · intro q hq
            rcases List.mem_cons.mp hq with rfl | hq
            · exact ⟨d, hd, hmsg, owner, hbox' ▸ hentry⟩
            · exact hopened.covered q hq
          · intro e he
            exact .inr ⟨e, hdel ▸ he, rfl⟩
        · refine ⟨⟨?_, ?_, ?_⟩, hdb', hmail.trans (addDelivery_mailOnly _ _ _ _ _ _ _), ?_, ?_⟩
          · intro e he hmsg
            rcases List.mem_append.mp he with he | he
            · exact hopened.active e he hmsg
            · rw [List.mem_singleton.mp he]
          · intro e he hmsg
            rcases List.mem_append.mp he with he | he
            · exact hopened.placed e he hmsg
            · rw [List.mem_singleton.mp he]
              exact ⟨r, hr, owner, hentry⟩
          · intro q hq
            rcases List.mem_cons.mp hq with rfl | hq
            · exact ⟨_, List.mem_append_right _ (List.mem_singleton.mpr rfl), rfl, owner, hentry⟩
            · obtain ⟨e, he, hrest⟩ := hopened.covered q hq
              exact ⟨e, List.mem_append_left _ he, hrest⟩
          · unfold addDelivery
            dsimp only
            rw [List.filter_append, hdel]
            simp
          · intro e he
            rcases List.mem_append.mp he with he | he
            · exact .inr ⟨e, hdel ▸ he, rfl⟩
            · rw [List.mem_singleton.mp he]
              exact .inl (List.mem_singleton.mpr rfl)

/-- The loop over the receipts of a manifest. -/
theorem recoverRecipients_landing (hA : A.Lawful) (hB : B.Lawful) (hdb : db.Consistent)
    (hnorm : db.RootsNormalized) (hf : f.Describes job)
    {recipients : List (Text × RecipientDelivery)}
    (hmem : ∀ x ∈ recipients, x.2 ∈ job.recipients)
    (hcurrent : ∀ r ∈ job.recipients, r.Current A db)
    (hagree : ∀ r ∈ job.recipients, A.AgreeOn B r.rcptTo) {done : List RecipientDelivery}
    (hlanding : Landing job done db) (hids : (recipients.map Prod.fst).Nodup)
    (hnew : ∀ x ∈ recipients, ∀ d ∈ db.deliveries, d.id ≠ x.1) {mailboxIds : List Nat} {n : Nat}
    (h : recoverRecipients B f (recipients.map fun x => (x.1, x.2.receipt)) db =
      .ok (mailboxIds, n, db')) :
    Landing job (recipients.map Prod.snd ++ done) db' ∧
      Replayed job (recipients.map Prod.fst) db db' := by
  induction recipients generalizing db done mailboxIds n with
  | nil =>
    cases h
    exact ⟨hlanding, hdb, .refl _, rfl, fun d hd => .inr ⟨d, hd, rfl⟩⟩
  | cons x rest ih =>
    obtain ⟨deliveryId, r⟩ := x
    obtain ⟨hfirst, hids⟩ := List.nodup_cons.mp hids
    have hr : r ∈ job.recipients := hmem _ List.mem_cons_self
    rw [List.map_cons] at h
    unfold recoverRecipients at h
    split at h
    · cases h
    · rename_i box m db₁ hone
      obtain ⟨hlanding₁, hreplayed₁⟩ := recoverRecipient_landing hA hB hdb hnorm hf hr
        (hcurrent r hr) (hagree r hr) hlanding (hnew _ List.mem_cons_self) hone
      split at h
      · cases h
      · rename_i boxes m' db₂ hloop
        cases h
        have hdomains := hreplayed₁.mailOnly.domains
        have hnew₁ : ∀ x ∈ rest, ∀ d ∈ db₁.deliveries, d.id ≠ x.1 := by
          intro x hx d hd heq
          rcases hreplayed₁.delivery_ids d hd with hid | ⟨e, he, hid⟩
          · rw [List.mem_singleton.mp hid] at heq
            exact hfirst (List.mem_map.mpr ⟨x, hx, heq.symm⟩)
          · exact hnew x (List.mem_cons_of_mem _ hx) e he (hid.trans heq)
        obtain ⟨hlanding₂, hreplayed₂⟩ := ih hreplayed₁.consistent
          (hreplayed₁.mailOnly.rootsNormalized_iff.mpr hnorm)
          (fun x hx => hmem x (List.mem_cons_of_mem _ hx))
          (fun q hq => (hcurrent q hq).congr hdomains) hlanding₁ hids hnew₁ hloop
        refine ⟨hlanding₂.mono ?_, hreplayed₂.consistent,
          hreplayed₁.mailOnly.trans hreplayed₂.mailOnly,
          hreplayed₂.others.trans hreplayed₁.others, ?_⟩
        · intro q hq
          rw [List.map_cons, List.cons_append, List.mem_cons, List.mem_append] at hq
          rw [List.mem_append, List.mem_cons]
          tauto
        · intro d hd
          rw [List.map_cons]
          rcases hreplayed₂.delivery_ids d hd with hid | ⟨e, he, hid⟩
          · exact .inl (List.mem_cons_of_mem _ hid)
          · rcases hreplayed₁.delivery_ids e he with hid' | ⟨e', he', hid'⟩
            · rw [← hid, List.mem_singleton.mp hid']
              exact .inl List.mem_cons_self
            · exact .inr ⟨e', he', hid'.trans hid⟩

/-- A refresh of summaries writes derived columns only. -/
theorem refreshMailboxSummaries_kept {mailboxIds : List Nat}
    (h : db.refreshMailboxSummaries mailboxIds = .ok db') :
    db'.deliveries = db.deliveries ∧ db.MailOnly db' ∧ ∀ id address domainId,
      db'.Entry id address domainId ↔ db.Entry id address domainId := by
  have hstep (s : Db) (hs : s.deliveries = db.deliveries ∧ db.MailOnly s ∧ ∀ id address domainId,
      s.Entry id address domainId ↔ db.Entry id address domainId) (mailboxId : Nat)
      (_ : mailboxId ∈ mailboxIds) (s' : Db) (hone : s.refreshMailboxSummary mailboxId = .ok s') :
      s'.deliveries = db.deliveries ∧ db.MailOnly s' ∧ ∀ id address domainId,
        s'.Entry id address domainId ↔ db.Entry id address domainId := by
    unfold refreshMailboxSummary at hone
    dsimp only at hone
    split at hone
    · cases hone
      refine ⟨hs.1, hs.2.1.trans (updateMailbox_mailOnly _ _), fun id address domainId => ?_⟩
      refine (entry_updateMailbox ?_ id address domainId).trans (hs.2.2 id address domainId)
      exact ⟨fun _ => rfl, fun _ => rfl, fun _ => rfl, fun _ => rfl⟩
    · split at hone
      · cases hone
      · cases hone
        exact hs
  exact Transition.foldlM_invariant hstep ⟨rfl, .refl db, fun _ _ _ => Iff.rfl⟩ h

/-- The attachments of a replay. -/
theorem insertAttachmentsOrIgnore_kept {attachments : List RecoveryAttachment}
    (h : attachments.foldlM (fun db a => db.insertAttachmentOrIgnore (f.attachmentRow a)) db =
      .ok db') :
    db'.messages = db.messages ∧ db'.metrics = db.metrics ∧ db'.fileGcTasks = db.fileGcTasks := by
  have hstep (s : Db) (hs : s.messages = db.messages ∧ s.metrics = db.metrics ∧
      s.fileGcTasks = db.fileGcTasks) (a : RecoveryAttachment) (_ : a ∈ attachments) (s' : Db)
      (hone : s.insertAttachmentOrIgnore (f.attachmentRow a) = .ok s') :
      s'.messages = db.messages ∧ s'.metrics = db.metrics ∧ s'.fileGcTasks = db.fileGcTasks := by
    unfold insertAttachmentOrIgnore at hone
    split at hone
    · cases hone
      exact hs
    · obtain ⟨-, -, rfl⟩ := insertAttachment_ok hone
      exact hs
  exact Transition.foldlM_invariant hstep ⟨rfl, rfl, rfl⟩ h

/-- A message that is ignored is there already, or another message has its raw file. -/
theorem insertMessageOrIgnore_ok {row : MessageRow} {inserted : Bool}
    (h : db.insertMessageOrIgnore row = .ok (inserted, db')) :
    inserted = false ∧ db' = db ∨
      inserted = true ∧ (∀ m ∈ db.messages, m.id ≠ row.id) ∧
        db' = { db with messages := db.messages ++ [row] } := by
  unfold insertMessageOrIgnore at h
  split at h
  · cases h
    exact .inl ⟨rfl, rfl⟩
  · split at h
    · cases h
    · rename_i db₁ hins
      cases h
      obtain ⟨hnew, rfl⟩ := insertMessage_ok hins
      exact .inr ⟨rfl, hnew, rfl⟩

/-- Only the id of a message that is not stored is free of deliveries. -/
theorem landing_nil (hdb : db.Consistent) (hnew : ∀ m ∈ db.messages, m.id ≠ job.messageId) :
    Landing job [] db := by
  have hnone (d : DeliveryRow) (hd : d ∈ db.deliveries) : d.messageId ≠ job.messageId := by
    intro hmsg
    obtain ⟨m, hm, hid⟩ := hdb.delivery_messages d hd
    exact hnew m hm (hid.trans hmsg)
  exact ⟨fun d hd hmsg => absurd hmsg (hnone d hd), fun d hd hmsg => absurd hmsg (hnone d hd),
    fun r hr => absurd hr List.not_mem_nil⟩

theorem recoveryMetric_eq (db : Db) (f : RecoveryManifest) (inserted : Bool) (n : Nat) :
    ∃ metrics, db.recoveryMetric f inserted n = { db with metrics := metrics } := by
  unfold recoveryMetric
  split
  · exact BatchWriter.upsertMetric_eq _ _ _ _ _
  · exact ⟨_, rfl⟩

theorem received_recoveryMetric (db : Db) (f : RecoveryManifest) (inserted : Bool) (n bucket : Nat) :
    (db.recoveryMetric f inserted n).received bucket =
      db.received bucket + if metricBucketTs f.receivedAt = bucket then inserted.toNat else 0 := by
  unfold recoveryMetric
  split
  · exact received_upsertMetric _ _ _ _ _ _
  · rename_i hnone
    have hfalse : inserted = false := by
      cases inserted with
      | false => rfl
      | true => simp at hnone
    simp [hfalse]

/-- The receipts with their delivery ids. -/
def deliveryPairs (job : MailJob) (deliveryIds : Nat → Text) : List (Text × RecipientDelivery) :=
  job.recipients.mapIdx fun i r => (deliveryIds i, r)

theorem deliveryPairs_fst (job : MailJob) (deliveryIds : Nat → Text) :
    (deliveryPairs job deliveryIds).map Prod.fst =
      (List.range job.recipients.length).map deliveryIds := by
  unfold deliveryPairs
  apply List.ext_getElem
  · simp
  · intro i h₁ h₂
    simp

theorem deliveryPairs_snd (job : MailJob) (deliveryIds : Nat → Text) :
    (deliveryPairs job deliveryIds).map Prod.snd = job.recipients := by
  unfold deliveryPairs
  apply List.ext_getElem
  · simp
  · intro i h₁ h₂
    simp

theorem deliveryPairs_receipts (job : MailJob) (deliveryIds : Nat → Text) :
    ((job.recipients.map RecipientDelivery.receipt).mapIdx fun i r => (deliveryIds i, r)) =
      (deliveryPairs job deliveryIds).map fun x => (x.1, x.2.receipt) := by
  unfold deliveryPairs
  apply List.ext_getElem
  · simp
  · intro i h₁ h₂
    simp

/-- The delivery ids that a replay draws are new. -/
structure FreshIds (db : Db) (job : MailJob) (deliveryIds : Nat → Text) : Prop where
  distinct : ((List.range job.recipients.length).map deliveryIds).Nodup
  fresh : ∀ i < job.recipients.length, ∀ d ∈ db.deliveries, d.id ≠ deliveryIds i

/-- What a replay leaves behind. -/
structure ReplayedJob (job : MailJob) (db db' : Db) : Prop where
  consistent : db'.Consistent
  domains : db'.domains = db.domains
  fileGcTasks : db'.fileGcTasks = db.fileGcTasks
  landing : Landing job job.recipients db'
  message : ∃ m ∈ db'.messages, m.id = job.messageId
  messages : db'.messages = db.messages ∨ (∀ m ∈ db.messages, m.id ≠ job.messageId) ∧
    ∃ row, row.id = job.messageId ∧ row.receivedAt = job.receivedAt ∧
      db'.messages = db.messages ++ [row]
  counted : Counted db db'
  others : db'.deliveries.filter (fun d => d.messageId ≠ job.messageId) =
    db.deliveries.filter fun d => d.messageId ≠ job.messageId

/-- The loop over all receipts of a manifest. -/
theorem recoverPairs_landing (hA : A.Lawful) (hB : B.Lawful) (hdb : db.Consistent)
    (hnorm : db.RootsNormalized) (hf : f.Describes job)
    (hcurrent : ∀ r ∈ job.recipients, r.Current A db)
    (hagree : ∀ r ∈ job.recipients, A.AgreeOn B r.rcptTo) (hlanding : Landing job [] db)
    {deliveryIds : Nat → Text} (hids : FreshIds db job deliveryIds) {mailboxIds : List Nat} {n : Nat}
    (h : recoverRecipients B f
      ((deliveryPairs job deliveryIds).map fun x => (x.1, x.2.receipt)) db =
        .ok (mailboxIds, n, db')) :
    Landing job job.recipients db' ∧
      Replayed job ((List.range job.recipients.length).map deliveryIds) db db' := by
  have hmem : ∀ x ∈ deliveryPairs job deliveryIds, x.2 ∈ job.recipients := by
    intro x hx
    rw [← deliveryPairs_snd job deliveryIds]
    exact List.mem_map_of_mem hx
  have hnew : ∀ x ∈ deliveryPairs job deliveryIds, ∀ d ∈ db.deliveries, d.id ≠ x.1 := by
    intro x hx d hd
    have hfst := List.mem_map_of_mem (f := Prod.fst) hx
    rw [deliveryPairs_fst] at hfst
    obtain ⟨i, hi, hid⟩ := List.mem_map.mp hfst
    rw [← hid]
    exact hids.fresh i (List.mem_range.mp hi) d hd
  have hdistinct : ((deliveryPairs job deliveryIds).map Prod.fst).Nodup := by
    rw [deliveryPairs_fst]
    exact hids.distinct
  have hloop := recoverRecipients_landing hA hB hdb hnorm hf hmem hcurrent hagree hlanding hdistinct
    hnew h
  rw [deliveryPairs_snd, deliveryPairs_fst, List.append_nil] at hloop
  exact hloop

/-- What follows the loop of a replay leaves the deliveries where they are. -/
theorem replayTail_kept {db₂ db₃ db₄ : Db} {mailboxIds : List Nat} (job : MailJob)
    (inserted : Bool) (n : Nat) (hrefresh : db₂.refreshMailboxSummaries mailboxIds = .ok db₃)
    (hatt : f.attachments.foldlM (fun db a => db.insertAttachmentOrIgnore (f.attachmentRow a)) db₃ =
      .ok db₄) :
    db₂.LeavesAlone job.messageId (db₄.recoveryMetric f inserted n) ∧
      (db₄.recoveryMetric f inserted n).deliveries = db₂.deliveries ∧
      (db₄.recoveryMetric f inserted n).domains = db₂.domains ∧
      (db₄.recoveryMetric f inserted n).messages = db₂.messages ∧
      (db₄.recoveryMetric f inserted n).fileGcTasks = db₂.fileGcTasks ∧
      db₄.metrics = db₂.metrics := by
  obtain ⟨hdel, hmail, hentries⟩ := refreshMailboxSummaries_kept hrefresh
  obtain ⟨hmessages, hmetrics, hgc⟩ := insertAttachmentsOrIgnore_kept hatt
  have hsame := (insertAttachmentsOrIgnore_sameMail hatt).trans
    (recoveryMetric_sameMail db₄ f inserted n)
  obtain ⟨metrics, hmetric⟩ := recoveryMetric_eq db₄ f inserted n
  refine ⟨⟨?_, ?_⟩, ?_, ?_, ?_, ?_, hmetrics.trans hmail.metrics⟩
  · rw [hsame.deliveries, hdel]
  · intro d _ _ b hb hid
    obtain ⟨b', hb', hid', haddr', -⟩ := (hentries _ _ _).mpr (Entry.of_mem hb)
    exact ⟨b', hsame.mailboxes ▸ hb', hid'.trans hid, haddr'⟩
  · rw [hsame.deliveries, hdel]
  · rw [hsame.domains, hmail.domains]
  · rw [hmetric]
    exact hmessages.trans hmail.messages
  · rw [hmetric]
    exact hgc.trans hmail.fileGcTasks

/-- A replay stores the message, or completes it. -/
theorem replayManifest_replayed (hA : A.Lawful) (hB : B.Lawful) (hdb : db.Consistent)
    (hnorm : db.RootsNormalized) (hf : f.Describes job)
    (hcurrent : ∀ r ∈ job.recipients, r.Current A db)
    (hagree : ∀ r ∈ job.recipients, A.AgreeOn B r.rcptTo) (hlanding : Landing job [] db)
    (hnonempty : job.recipients ≠ []) {deliveryIds : Nat → Text}
    (hids : FreshIds db job deliveryIds)
    (h : db.replayManifest B f ((deliveryPairs job deliveryIds).map fun x => (x.1, x.2.receipt)) =
      .ok db') : ReplayedJob job db db' := by
  have hedits : Edits (serviceRules (fun _ => True) fun _ => True) db db' :=
    replayManifest_edits hB hdb (fun _ _ => trivial) trivial (fun _ _ => trivial) h
  have hdb' := Edits.consistent hdb hedits
  obtain ⟨inserted, db₁, mailboxIds, n, db₂, db₃, db₄, hmsg, hloop, hrefresh, hatt, rfl⟩ :=
    replayManifest_ok h
  have hedits₁ : Edits (idRules (fun _ => True) fun _ => True) db db₁ :=
    insertMessageOrIgnore_edits hmsg trivial
  have hsame := insertMessageOrIgnore_sameMail hmsg
  have hnorm₁ : db₁.RootsNormalized := by
    unfold RootsNormalized
    rw [hsame.domains]
    exact hnorm
  have hids₁ : FreshIds db₁ job deliveryIds := ⟨hids.distinct, hsame.deliveries ▸ hids.fresh⟩
  obtain ⟨hlanding₂, hreplayed⟩ := recoverPairs_landing hA hB (Edits.consistent hdb hedits₁) hnorm₁
    hf (fun r hr => (hcurrent r hr).congr hsame.domains) hagree
    (hlanding.leavesAlone (.of_sameMail _ hsame)) hids₁ hloop
  obtain ⟨halone, hdel, hdomains, hmessages, hgc, hmetrics⟩ :=
    replayTail_kept job inserted n hrefresh hatt
  have hlanding₄ := hlanding₂.leavesAlone halone
  have hmail := hreplayed.mailOnly
  rw [hmail.messages] at hmessages
  have hreceived (bucket : Nat) : db₄.received bucket = db₁.received bucket := by
    unfold received
    rw [hmetrics, hmail.metrics]
  have hothers : (db₄.recoveryMetric f inserted n).deliveries.filter
      (fun d => d.messageId ≠ job.messageId) =
        db.deliveries.filter fun d => d.messageId ≠ job.messageId := by
    rw [hdel, hreplayed.others, hsame.deliveries]
  have hmessage : ∃ m ∈ (db₄.recoveryMetric f inserted n).messages, m.id = job.messageId := by
    -- a delivery of the message needs the message
    obtain ⟨r, hr⟩ := List.exists_mem_of_ne_nil _ hnonempty
    obtain ⟨d, hd, hid, -⟩ := hlanding₄.covered r hr
    obtain ⟨m, hm, hmid⟩ := hdb'.delivery_messages d hd
    exact ⟨m, hm, hmid.trans hid⟩
  rw [hmail.domains, hsame.domains] at hdomains
  obtain ⟨rfl, rfl⟩ | ⟨rfl, hnew, rfl⟩ := insertMessageOrIgnore_ok hmsg
  · refine ⟨hdb', hdomains, hgc.trans hmail.fileGcTasks, hlanding₄, hmessage, .inl hmessages, ?_,
      hothers⟩
    intro bucket
    rw [received_recoveryMetric, hreceived]
    unfold messagesIn
    rw [hmessages]
    simp
  · refine ⟨hdb', hdomains, hgc.trans hmail.fileGcTasks, hlanding₄, hmessage,
      .inr ⟨?_, _, hf.messageId, hf.receivedAt, hmessages⟩, ?_, hothers⟩
    · rw [← hf.messageId]
      exact hnew
    · refine .of_one hmessages fun bucket => ?_
      rw [received_recoveryMetric, hreceived]
      rfl

theorem applyRecoveryManifest_replayed (hA : A.Lawful) (hB : B.Lawful) (hdb : db.Consistent)
    (hnorm : db.RootsNormalized) (hf : f.Describes job)
    (hcurrent : ∀ r ∈ job.recipients, r.Current A db)
    (hagree : ∀ r ∈ job.recipients, A.AgreeOn B r.rcptTo)
    (hlanding : (∃ m ∈ db.messages, m.id = job.messageId) → Landing job job.recipients db)
    (hretired : db.isRetired f = false) {deliveryIds : Nat → Text}
    (hids : FreshIds db job deliveryIds)
    (h : db.applyRecoveryManifest B f deliveryIds = .ok db') : ReplayedJob job db db' := by
  have hstart : Landing job [] db := by
    by_cases hstored : ∃ m ∈ db.messages, m.id = job.messageId
    · exact (hlanding hstored).mono fun _ hr => absurd hr List.not_mem_nil
    · push Not at hstored
      exact landing_nil hdb hstored
  unfold applyRecoveryManifest at h
  rw [hretired] at h
  unfold recoveryRecipientsFromManifest at h
  rw [hf.recipients] at h
  simp only [Bool.false_eq_true, if_false, List.isEmpty_map] at h
  cases hempty : job.recipients.isEmpty with
  | true =>
    rw [hempty] at h
    cases h
  | false =>
    rw [hempty] at h
    simp only [Bool.false_eq_true, if_false] at h
    rw [deliveryPairs_receipts] at h
    exact replayManifest_replayed hA hB hdb hnorm hf hcurrent hagree hstart
      (List.isEmpty_eq_false_iff.mp hempty) hids h

end Db
end RapidInbox

import RapidInbox.Store.BulkComplete
import RapidInbox.Store.CurrentRules

/-!
# A stored message

What a commit and a replay of one message have in common: afterwards the message has one active
delivery for each of its recipients, in the mailbox with the address it was accepted with.
-/

namespace RapidInbox

open Table

namespace Db

variable {db db' : Db}

/-! ## The received metric -/

/-- The column `received` of a bucket, which is 0 before the bucket is written. -/
def received (db : Db) (bucketTs : Nat) : Nat :=
  ((db.metrics.find? fun b => b.bucketTs = bucketTs).map MetricBucket.received).getD 0

/-- The messages of a bucket. -/
def messagesIn (db : Db) (bucketTs : Nat) : Nat :=
  (db.messages.filter fun row => metricBucketTs row.receivedAt = bucketTs).length

theorem received_upsertMetric (db : Db) (bucketTs n deliveries parseFailures bucket : Nat) :
    (db.upsertMetric bucketTs n deliveries parseFailures).received bucket =
      db.received bucket + if bucketTs = bucket then n else 0 := by
  unfold upsertMetric received
  split
  · rename_i hany
    dsimp only
    unfold Table.updateWhere
    rw [List.find?_map]
    have hkey : ((fun b : MetricBucket => decide (b.bucketTs = bucket)) ∘ fun b =>
        if decide (b.bucketTs = bucketTs) = true then
          { b with
            received := b.received + n
            deliveries := b.deliveries + deliveries
            parseFailures := b.parseFailures + parseFailures }
        else b) = fun b => decide (b.bucketTs = bucket) := by
      funext b
      dsimp only [Function.comp]
      split
      · rfl
      · rfl
    rw [hkey]
    cases hfind : db.metrics.find? fun b => b.bucketTs = bucket with
    | none =>
      have hne : bucketTs ≠ bucket := by
        rintro rfl
        obtain ⟨b, hb, hbucket⟩ := List.any_eq_true.mp hany
        exact find?_key_none.mp hfind b hb (of_decide_eq_true hbucket)
      simp [hne]
    | some b =>
      have hbucket : b.bucketTs = bucket := by simpa using List.find?_some hfind
      simp only [Option.map_some, Option.getD_some, hbucket]
      by_cases heq : bucketTs = bucket
      · simp [heq]
      · simp [heq, Ne.symm heq]
  · rename_i hany
    have hnone : db.metrics.find? (fun b => b.bucketTs = bucketTs) = none := by
      rw [List.find?_eq_none]
      intro b hb hbucket
      exact hany (List.any_eq_true.mpr ⟨b, hb, hbucket⟩)
    dsimp only
    rw [List.find?_append]
    by_cases heq : bucketTs = bucket
    · subst heq
      simp [hnone]
    · simp [heq]

/-- New messages have raised the metric of their buckets by one each. -/
def Counted (start db : Db) : Prop :=
  ∀ bucket, db.received bucket + start.messagesIn bucket =
    start.received bucket + db.messagesIn bucket

theorem Counted.refl (db : Db) : Counted db db := fun _ => rfl

theorem Counted.trans {db'' : Db} (h : Counted db db') (h' : Counted db' db'') :
    Counted db db'' := by
  intro bucket
  have h₁ := h bucket
  have h₂ := h' bucket
  omega

/-- One message more, and one received mail more in its bucket. -/
theorem Counted.of_one {row : MessageRow} (hmessages : db'.messages = db.messages ++ [row])
    (hreceived : ∀ bucket, db'.received bucket =
      db.received bucket + if metricBucketTs row.receivedAt = bucket then 1 else 0) :
    Counted db db' := by
  intro bucket
  unfold messagesIn
  rw [hreceived, hmessages, List.filter_append, List.length_append]
  by_cases heq : metricBucketTs row.receivedAt = bucket
  · simp [heq]
    omega
  · simp [heq]

end Db

/-! ## The deliveries of a job -/

/-- The recipients `done` of a job have a delivery, and the job has no other deliveries than those of
    its recipients. -/
structure Landing (job : MailJob) (done : List RecipientDelivery) (db : Db) : Prop where
  active : ∀ d ∈ db.deliveries, d.messageId = job.messageId → d.status = .active
  placed : ∀ d ∈ db.deliveries, d.messageId = job.messageId →
    ∃ r ∈ job.recipients, ∃ domainId, db.Entry d.mailboxId r.domainMatch.addressCanonical domainId
  covered : ∀ r ∈ done, ∃ d ∈ db.deliveries, d.messageId = job.messageId ∧
    ∃ domainId, db.Entry d.mailboxId r.domainMatch.addressCanonical domainId

variable {job : MailJob} {done : List RecipientDelivery} {db db' : Db}

theorem Landing.mono {done' : List RecipientDelivery} (h : Landing job done db)
    (hsub : ∀ r ∈ done', r ∈ done) : Landing job done' db :=
  ⟨h.active, h.placed, fun r hr => h.covered r (hsub r hr)⟩

/-- The deliveries of a message are as they were, in mailboxes with the addresses they had. -/
structure Db.LeavesAlone (messageId : Text) (db db' : Db) : Prop where
  deliveries : db'.deliveries.filter (fun d => d.messageId = messageId) =
    db.deliveries.filter fun d => d.messageId = messageId
  addresses : ∀ d ∈ db.deliveries, d.messageId = messageId → ∀ b ∈ db.mailboxes,
    b.id = d.mailboxId → ∃ b' ∈ db'.mailboxes, b'.id = d.mailboxId ∧
      b'.addressCanonical = b.addressCanonical

theorem Db.LeavesAlone.mem_iff {messageId : Text} (h : db.LeavesAlone messageId db')
    {d : DeliveryRow} (hmsg : d.messageId = messageId) : d ∈ db'.deliveries ↔ d ∈ db.deliveries := by
  have hmem : d ∈ db'.deliveries.filter (fun d => d.messageId = messageId) ↔
      d ∈ db.deliveries.filter fun d => d.messageId = messageId := by rw [h.deliveries]
  simpa [hmsg] using hmem

theorem Landing.leavesAlone (h : Landing job done db) (halone : db.LeavesAlone job.messageId db') :
    Landing job done db' where
  active := fun d hd hmsg => h.active d ((halone.mem_iff hmsg).mp hd) hmsg
  placed := by
    intro d hd hmsg
    have hd := (halone.mem_iff hmsg).mp hd
    obtain ⟨r, hr, domainId, b, hb, hid, haddr, -⟩ := h.placed d hd hmsg
    obtain ⟨b', hb', hid', haddr'⟩ := halone.addresses d hd hmsg b hb hid
    exact ⟨r, hr, b'.domainId, b', hb', hid', haddr'.trans haddr, rfl⟩
  covered := by
    intro r hr
    obtain ⟨d, hd, hmsg, domainId, b, hb, hid, haddr, -⟩ := h.covered r hr
    obtain ⟨b', hb', hid', haddr'⟩ := halone.addresses d hd hmsg b hb hid
    exact ⟨d, (halone.mem_iff hmsg).mpr hd, hmsg, b'.domainId, b', hb', hid', haddr'.trans haddr,
      rfl⟩

theorem Db.LeavesAlone.of_sameMail (messageId : Text) (h : db.SameMail db') :
    db.LeavesAlone messageId db' where
  deliveries := by rw [h.deliveries]
  addresses := fun _ _ _ b hb hid => ⟨b, h.mailboxes ▸ hb, hid, rfl⟩

/-! ## The commit -/

namespace BatchWriter

open Db

variable {A : AddressOps}

/-- The database that the recipient loop of a new job starts from. -/
structure Staged (db : Db) (job : MailJob) (result : ParseResult) (staged : Db) : Prop where
  sameMail : db.SameMail staged
  consistent : staged.Consistent
  messages : staged.messages = db.messages ++ [messageRow job result]
  metrics : staged.metrics = db.metrics
  fileGcTasks : staged.fileGcTasks = db.fileGcTasks

/-- A job is skipped, or its recipients are stored after it has been staged. -/
theorem storeJob_staged (hdb : db.Consistent) {result : ParseResult}
    (h : storeJob A db job result = .ok db') :
    (∃ m ∈ db.messages, m.id = job.messageId) ∧ db' = db ∨
      (∀ m ∈ db.messages, m.id ≠ job.messageId) ∧ ∃ staged stored n, Staged db job result staged ∧
        storeRecipients A job job.recipients [] staged = .ok (n, stored) ∧
        db' = stored.upsertMetric (metricBucketTs job.receivedAt) 1 n (parseFailures result) := by
  obtain hskip | ⟨hnew, db₁, staged, stored, n, hmsg, hatt, hloop, rfl⟩ := storeJob_ok h
  · exact .inl hskip
  · refine .inr ⟨hnew, staged, stored, n, ?_, hloop, rfl⟩
    have hedits : Edits (idRules (fun _ => True) fun _ => True) db staged :=
      ((Edits.single (upsertSession_edit job)).tail (.addMessage hmsg trivial)).trans
        (insertAttachments_edits hatt).1
    have hsame := ((upsertSession_sameMail db job).trans (insertMessage_sameMail hmsg)).trans
      (insertAttachments_sameMail hatt)
    have hkept : staged.messages = db₁.messages ∧ staged.metrics = db₁.metrics ∧
        staged.fileGcTasks = db₁.fileGcTasks := by
      have hstep (s : Db) (hs : s.messages = db₁.messages ∧ s.metrics = db₁.metrics ∧
          s.fileGcTasks = db₁.fileGcTasks) (a : ParsedAttachment) (_ : a ∈ attachmentsOf result)
          (s' : Db) (hins : s.insertAttachment (attachmentRow job a) = .ok s') :
          s'.messages = db₁.messages ∧ s'.metrics = db₁.metrics ∧
            s'.fileGcTasks = db₁.fileGcTasks := by
        obtain ⟨-, -, rfl⟩ := insertAttachment_ok hins
        exact hs
      exact Transition.foldlM_invariant hstep ⟨rfl, rfl, rfl⟩ hatt
    obtain ⟨sessions, hsession⟩ := upsertSession_eq db job
    rw [hsession] at hmsg
    obtain ⟨-, rfl⟩ := insertMessage_ok hmsg
    exact ⟨hsame, Edits.consistent hdb hedits, hkept.1, hkept.2.1, hkept.2.2⟩

theorem storeRecipients_mailOnly {n : Nat} {recipients : List RecipientDelivery}
    {delivered : List (Nat × Text)} (hdb : db.Consistent)
    (h : storeRecipients A job recipients delivered db = .ok (n, db')) : db.MailOnly db' :=
  (storeRecipients_edits hdb rfl (fun _ hr => hr) (fun _ => True) (fun _ _ => trivial) h).2

/-- A commit counts every message that it adds. -/
theorem storeJob_counted (hdb : db.Consistent) {result : ParseResult}
    (h : storeJob A db job result = .ok db') : Counted db db' := by
  obtain ⟨-, rfl⟩ | ⟨-, staged, stored, n, hstaged, hloop, rfl⟩ := storeJob_staged hdb h
  · exact .refl db'
  · have hmail := storeRecipients_mailOnly hstaged.consistent hloop
    obtain ⟨metrics, hmetric⟩ := upsertMetric_eq stored (metricBucketTs job.receivedAt) 1 n
      (parseFailures result)
    have hmessages : (upsertMetric stored (metricBucketTs job.receivedAt) 1 n
        (parseFailures result)).messages = db.messages ++ [messageRow job result] := by
      rw [hmetric]
      exact hmail.messages.trans hstaged.messages
    refine .of_one hmessages ?_
    · intro bucket
      rw [received_upsertMetric]
      unfold received
      rw [hmail.metrics, hstaged.metrics]
      rfl

/-- A commit of a job under unchanged rules. -/
theorem storeJob_landing (hA : A.Lawful) (hdb : db.Consistent) (hnorm : db.RootsNormalized)
    (hcurrent : ∀ r ∈ job.recipients, r.Current A db) {result : ParseResult}
    (hnew : ∀ m ∈ db.messages, m.id ≠ job.messageId)
    (h : storeJob A db job result = .ok db') : Landing job job.recipients db' := by
  obtain ⟨⟨m, hm, hid⟩, -⟩ | ⟨-, staged, stored, n, hstaged, hloop, rfl⟩ := storeJob_staged hdb h
  · exact absurd hid (hnew m hm)
  · have hstart : Stored db job.messageId [] staged := by
      refine .start hdb hstaged.consistent hstaged.sameMail hnew ?_
      rw [hstaged.messages]
      exact ⟨_, List.mem_append_right _ (List.mem_singleton.mpr rfl), rfl⟩
    have hstored := storeRecipients_stored hA hnorm hstart (fun r hr => (hcurrent r hr).hasDomain)
      (clear_of_current hA hdb hcurrent) hloop
    rw [List.nil_append] at hstored
    obtain ⟨hmem, -, hcover⟩ := firstByKey_spec [] (resolved A db job)
    have hresolved (r : RecipientDelivery) (hr : r ∈ job.recipients) :
        (r, currentMatch A db r).2 = r.domainMatch := (hcurrent r hr).currentMatch_eq hA hdb
    have hlanding : Landing job job.recipients stored := by
      refine ⟨hstored.active, ?_, ?_⟩
      · intro d hd hmsg
        obtain ⟨p, hp, domainId, hentry⟩ := hstored.of_mem hd hmsg
        obtain ⟨r, hr, rfl⟩ := List.mem_map.mp (hmem p hp).1
        rw [hresolved r hr] at hentry
        exact ⟨r, hr, domainId, hentry⟩
      · intro r hr
        obtain hseen | ⟨q, hq, hkey⟩ := hcover _ (List.mem_map_of_mem hr)
        · exact absurd hseen List.not_mem_nil
        · obtain ⟨d, hd, hmsg, domainId, hentry⟩ := hstored.of_done hq
          rw [hresolved r hr, Prod.mk.injEq] at hkey
          rw [hkey.2] at hentry
          exact ⟨d, hd, hmsg, domainId, hentry⟩
    exact hlanding.leavesAlone (.of_sameMail _ (upsertMetric_sameMail _ _ _ _ _))

/-! ## The deliveries of other messages -/

/-- Without a merge, a recipient adds its delivery and changes no other. -/
theorem storeRecipient_unmerged (hdb : db.Consistent) {r : RecipientDelivery} {m : DomainMatch}
    (hdom : ∃ d ∈ db.domains, d.id = m.domainId) (h : storeRecipient A job r m db = .ok db')
    (hmerges : db'.merges = db.merges) :
    db'.deliveries.filter (fun d => d.messageId ≠ job.messageId) =
      db.deliveries.filter fun d => d.messageId ≠ job.messageId := by
  obtain ⟨ready, expiresAt, generation, hprepared, heq⟩ := storeRecipient_eq (A := A) hdb job r hdom
  rw [heq] at h
  obtain ⟨-, -, rfl⟩ := insertDelivery_ok h
  unfold addDelivery
  dsimp only
  rw [List.filter_append, hprepared.unmerged hmerges]
  simp

/-- Neither do all recipients of a job. -/
theorem storeRecipients_unmerged {n : Nat} {recipients : List RecipientDelivery}
    {delivered : List (Nat × Text)} (hA : A.Lawful) (hdb : db.Consistent)
    (hnorm : db.RootsNormalized) (hcached : ∀ r ∈ recipients, db.HasDomain r.domainMatch)
    (h : storeRecipients A job recipients delivered db = .ok (n, db'))
    (hmerges : db'.merges = db.merges) :
    db'.deliveries.filter (fun d => d.messageId ≠ job.messageId) =
      db.deliveries.filter fun d => d.messageId ≠ job.messageId := by
  induction recipients generalizing db delivered n with
  | nil =>
    cases h
    rfl
  | cons r rest ih =>
    have hrest := fun r' hr' => hcached r' (List.mem_cons_of_mem _ hr')
    have hmatch := currentDomainMatch_eq hA hdb hnorm (hcached r List.mem_cons_self)
    unfold storeRecipients at h
    rw [hmatch] at h
    dsimp only at h
    split at h
    · exact ih hdb hnorm hrest h hmerges
    · split at h
      · cases h
      · rename_i db₁ hstore
        split at h
        · cases h
        · rename_i n' db₂ hloop
          cases h
          have hedits : Edits (idRules (fun _ => True) fun _ => True) db db₁ :=
            storeRecipient_edits hdb (fun _ _ _ _ => trivial) trivial hstore
          have hdb₁ := Edits.consistent hdb hedits
          have hmail := storeRecipient_mailOnly hstore
          -- the log of merges has not grown in either half
          have hfirst := Edits.merges_prefix hedits
          have hlast := Edits.merges_prefix
            (storeRecipients_edits hdb₁ rfl (fun _ hr => hr) (fun _ => True) (fun _ _ => trivial) hloop).1
          rw [hmerges] at hlast
          have hsame : db₁.merges = db.merges :=
            hlast.eq_of_length (Nat.le_antisymm hlast.length_le hfirst.length_le)
          rw [ih hdb₁ (hmail.rootsNormalized_iff.mpr hnorm)
            (fun r' hr' => hmail.hasDomain_iff.mpr (hrest r' hr')) hloop (hmerges.trans hsame.symm)]
          obtain ⟨d, hd, hid, -⟩ := currentMatch_hasDomain (A := A) (hcached r List.mem_cons_self)
          exact storeRecipient_unmerged hdb ⟨d, hd, hid⟩ hstore hsame

theorem storeJob_unmerged (hA : A.Lawful) (hdb : db.Consistent) (hnorm : db.RootsNormalized)
    (hcached : ∀ r ∈ job.recipients, db.HasDomain r.domainMatch) {result : ParseResult}
    (h : storeJob A db job result = .ok db') (hmerges : db'.merges = db.merges) :
    db'.deliveries.filter (fun d => d.messageId ≠ job.messageId) =
      db.deliveries.filter fun d => d.messageId ≠ job.messageId := by
  obtain ⟨-, rfl⟩ | ⟨-, staged, stored, n, hstaged, hloop, rfl⟩ := storeJob_staged hdb h
  · rfl
  · have hsame := upsertMetric_sameMail stored (metricBucketTs job.receivedAt) 1 n
      (parseFailures result)
    rw [hsame.deliveries, storeRecipients_unmerged hA hstaged.consistent ?_ ?_ hloop ?_,
      hstaged.sameMail.deliveries]
    · unfold RootsNormalized
      rw [hstaged.sameMail.domains]
      exact hnorm
    · unfold HasDomain
      rw [hstaged.sameMail.domains]
      exact hcached
    · rw [hstaged.sameMail.merges, ← hmerges, hsame.merges]

end BatchWriter
end RapidInbox

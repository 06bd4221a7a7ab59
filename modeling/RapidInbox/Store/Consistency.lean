import RapidInbox.Store.Schema

/-!
# Every edit keeps the schema

One lemma for each kind of table change, and from them the invariant of a chain of edits.
-/

namespace RapidInbox

open Table

namespace Db.Consistent

variable {db : Db}

/-- The mailbox table may be rewritten row by row if the ids stay. -/
theorem setMailboxes (h : db.Consistent) {rows : List MailboxRow}
    (hids : rows.map MailboxRow.id = db.mailboxes.map MailboxRow.id)
    (haddr : UniqueKey MailboxRow.addressCanonical rows)
    (hdom : ∀ b ∈ rows, ∃ d ∈ db.domains, d.id = b.domainId) :
    Consistent { db with mailboxes := rows } := by
  have hmem (x : Nat) : (∃ b ∈ rows, b.id = x) ↔ ∃ b ∈ db.mailboxes, b.id = x := by
    rw [← List.mem_map, hids, List.mem_map]
  refine { h with
    mailbox_ids := ?_, mailbox_seq := ?_, mailbox_addresses := haddr, mailbox_domains := hdom,
    delivery_mailboxes := ?_, job_mailboxes := ?_ }
  · unfold UniqueKey
    rw [hids]
    exact h.mailbox_ids
  · intro b hb
    obtain ⟨b', hb', hid⟩ := (hmem b.id).mp ⟨b, hb, rfl⟩
    exact hid ▸ h.mailbox_seq b' hb'
  · intro d hd
    exact (hmem _).mpr (h.delivery_mailboxes d hd)
  · intro j hj
    exact (hmem _).mpr (h.job_mailboxes j hj)

/-- The delivery table may be rewritten row by row if every row keeps its `rowid`, its id and its
    message, and stays in a mailbox that has no other delivery of the message. -/
theorem setDeliveries (h : db.Consistent) {f : DeliveryRow → Option DeliveryRow}
    (hf : ∀ d ∈ db.deliveries, ∀ d' ∈ f d,
      d'.rowid = d.rowid ∧ d'.id = d.id ∧ d'.messageId = d.messageId)
    (hbox : ∀ d ∈ db.deliveries, ∀ d' ∈ f d, ∃ b ∈ db.mailboxes, b.id = d'.mailboxId)
    (hkey : ∀ d ∈ db.deliveries, ∀ e ∈ db.deliveries, ∀ d' ∈ f d, ∀ e' ∈ f e,
      d.messageId = e.messageId → d'.mailboxId = e'.mailboxId → d = e) :
    Consistent { db with deliveries := db.deliveries.filterMap f } := by
  refine { h with
    delivery_ids := ?_, delivery_rowids := ?_, delivery_rowids_pos := ?_, delivery_keys := ?_,
    delivery_mailboxes := ?_, delivery_messages := ?_ }
  · refine h.delivery_ids.filterMap ?_
    intro d hd e he d' hd' e' he' heq
    rw [← (hf d hd d' hd').2.1, ← (hf e he e' he').2.1, heq]
  · rw [List.pairwise_filterMap]
    refine h.delivery_rowids.imp_of_mem ?_
    intro d e hd he hlt d' hd' e' he'
    rw [(hf d hd d' hd').1, (hf e he e' he').1]
    exact hlt
  · intro d' hd'
    obtain ⟨d, hd, hfd⟩ := List.mem_filterMap.mp hd'
    rw [(hf d hd d' hfd).1]
    exact h.delivery_rowids_pos d hd
  · refine h.delivery_ids.filterMap ?_
    intro d hd e he d' hd' e' he' heq
    obtain ⟨hmsg, hmail⟩ := Prod.mk.inj heq
    rw [(hf d hd d' hd').2.2, (hf e he e' he').2.2] at hmsg
    rw [hkey d hd e he d' hd' e' he' hmsg hmail]
  · intro d' hd'
    obtain ⟨d, hd, hfd⟩ := List.mem_filterMap.mp hd'
    exact hbox d hd d' hfd
  · intro d' hd'
    obtain ⟨d, hd, hfd⟩ := List.mem_filterMap.mp hd'
    rw [(hf d hd d' hfd).2.2]
    exact h.delivery_messages d hd

theorem delivery_eq (h : db.Consistent) {d e : DeliveryRow} (hd : d ∈ db.deliveries)
    (he : e ∈ db.deliveries) (hmsg : d.messageId = e.messageId)
    (hmail : d.mailboxId = e.mailboxId) : d = e :=
  h.delivery_keys.eq_of_mem hd he (by simp [hmsg, hmail])

theorem insertMailbox (h : db.Consistent) {db' : Db} {m : DomainMatch} {seenAt : Timestamp}
    {count id : Nat} {latest : Option Timestamp}
    (hins : db.insertMailbox m seenAt count latest = .ok (id, db')) : db'.Consistent := by
  obtain ⟨haddr, hdom, rfl, rfl⟩ := insertMailbox_ok hins
  refine { h with
    mailbox_ids := ?_, mailbox_seq := ?_, mailbox_addresses := ?_, mailbox_domains := ?_,
    delivery_mailboxes := ?_, job_mailboxes := ?_ }
  · refine h.mailbox_ids.append_singleton ?_
    intro b hb heq
    have := h.mailbox_seq b hb
    simp only at heq
    omega
  · intro b hb
    rcases List.mem_append.mp hb with hb | hb
    · exact Nat.le_succ_of_le (h.mailbox_seq b hb)
    · rw [List.mem_singleton.mp hb]
  · refine h.mailbox_addresses.append_singleton ?_
    intro b hb
    exact find?_key_none.mp haddr b hb
  · intro b hb
    rcases List.mem_append.mp hb with hb | hb
    · exact h.mailbox_domains b hb
    · rw [List.mem_singleton.mp hb]
      exact hdom
  · intro d hd
    obtain ⟨b, hb, hid⟩ := h.delivery_mailboxes d hd
    exact ⟨b, List.mem_append_left _ hb, hid⟩
  · intro j hj
    obtain ⟨b, hb, hid⟩ := h.job_mailboxes j hj
    exact ⟨b, List.mem_append_left _ hb, hid⟩

theorem setIdentity (h : db.Consistent) {db' : Db} {id : Nat} {m : DomainMatch}
    (hupd : db.updateMailboxIdentity id m = .ok db') : db'.Consistent := by
  obtain ⟨haddr, hdom, rfl⟩ := updateMailboxIdentity_ok hupd
  refine h.setMailboxes ?_ ?_ ?_
  · apply map_updateWhere
    intro b
    rfl
  · -- two rows with the new address are both the row `id`
    have hids : UniqueKey MailboxRow.id (db.updateMailbox id fun b => b.withIdentity m).mailboxes :=
      h.mailbox_ids.updateWhere fun _ => rfl
    unfold UniqueKey at hids ⊢
    rw [List.Nodup, List.pairwise_map] at hids ⊢
    refine hids.imp_of_mem ?_
    intro b b' hb hb' hne heq
    obtain ⟨c, hc, rfl⟩ := mem_updateWhere.mp hb
    obtain ⟨c', hc', rfl⟩ := mem_updateWhere.mp hb'
    by_cases h1 : c.id = id <;> by_cases h2 : c'.id = id
    · simp [h1, h2, MailboxRow.withIdentity] at hne
    · simp only [h1, h2, MailboxRow.withIdentity, decide_true, decide_false, if_true,
        Bool.false_eq_true, if_false] at heq
      exact h2 (haddr c' hc' heq.symm)
    · simp only [h1, h2, MailboxRow.withIdentity, decide_true, decide_false, if_true,
        Bool.false_eq_true, if_false] at heq
      exact h1 (haddr c hc heq)
    · simp only [h1, h2, decide_false, Bool.false_eq_true, if_false] at heq hne
      exact hne (congrArg _ (h.mailbox_addresses.eq_of_mem hc hc' heq))
  · intro b hb
    obtain ⟨c, hc, rfl⟩ := mem_updateWhere.mp hb
    split
    · exact hdom
    · exact h.mailbox_domains c hc

theorem setColumns (h : db.Consistent) {p : MailboxRow → Bool} {f : MailboxRow → MailboxRow}
    (hf : KeepsIdentity f) :
    Consistent { db with mailboxes := updateWhere p f db.mailboxes } := by
  refine h.setMailboxes (map_updateWhere hf.id _) ?_ ?_
  · exact h.mailbox_addresses.updateWhere hf.addressCanonical
  · intro b hb
    obtain ⟨c, hc, rfl⟩ := mem_updateWhere.mp hb
    split
    · rw [hf.domainId]
      exact h.mailbox_domains c hc
    · exact h.mailbox_domains c hc

theorem dropMailboxes (h : db.Consistent) {p : Nat → Bool}
    (hp : ∀ d ∈ db.deliveries, p d.mailboxId) :
    Consistent
      { db with
        mailboxes := db.mailboxes.filter fun b => p b.id
        bulkDeleteJobs := db.bulkDeleteJobs.filter fun j => p j.mailboxId } := by
  refine { h with
    mailbox_ids := h.mailbox_ids.filter _, mailbox_seq := ?_,
    mailbox_addresses := h.mailbox_addresses.filter _, mailbox_domains := ?_,
    delivery_mailboxes := ?_, job_ids := h.job_ids.filter _, job_mailboxes := ?_,
    job_incomplete := ?_ }
  · intro b hb
    exact h.mailbox_seq b (List.mem_of_mem_filter hb)
  · intro b hb
    exact h.mailbox_domains b (List.mem_of_mem_filter hb)
  · intro d hd
    obtain ⟨b, hb, hid⟩ := h.delivery_mailboxes d hd
    exact ⟨b, List.mem_filter.mpr ⟨hb, by rw [hid]; exact hp d hd⟩, hid⟩
  · intro j hj
    obtain ⟨hj, hpj⟩ := List.mem_filter.mp hj
    obtain ⟨b, hb, hid⟩ := h.job_mailboxes j hj
    exact ⟨b, List.mem_filter.mpr ⟨hb, by rw [hid]; exact hpj⟩, hid⟩
  · intro j hj j' hj'
    exact h.job_incomplete j (List.mem_of_mem_filter hj) j' (List.mem_of_mem_filter hj')

end Db.Consistent

namespace Db

/-- A message's delivery in a mailbox, by the unique key. -/
theorem deliveryOf?_eq_some {db : Db} (h : db.Consistent) {d : DeliveryRow}
    (hd : d ∈ db.deliveries) : db.deliveryOf? d.messageId d.mailboxId = some d := by
  have hfind := h.delivery_keys.find?_eq_some hd (k := (d.messageId, d.mailboxId)) rfl
  rw [deliveryOf?, ← hfind]
  congr 1
  funext e
  simp

theorem mem_of_deliveryOf? {db : Db} {messageId : Text} {mailboxId : Nat} {d : DeliveryRow}
    (h : db.deliveryOf? messageId mailboxId = some d) :
    d ∈ db.deliveries ∧ d.messageId = messageId ∧ d.mailboxId = mailboxId := by
  refine ⟨List.mem_of_find?_eq_some h, ?_⟩
  simpa using List.find?_some h

theorem deliveryOf?_eq_none {db : Db} {messageId : Text} {mailboxId : Nat} :
    db.deliveryOf? messageId mailboxId = none ↔
      ∀ d ∈ db.deliveries, d.messageId = messageId → d.mailboxId ≠ mailboxId := by
  rw [deliveryOf?, List.find?_eq_none]
  simp

/-- What becomes of a delivery in a merge. -/
theorem mergeRow_cases {db : Db} {read : Text → Text} {source target : Nat} {d d' : DeliveryRow}
    (h : db.mergeRow read source target d = some d') :
    (d.mailboxId = target ∧
        ∃ copy, db.deliveryOf? d.messageId source = some copy ∧
          d' = d.collapse read copy (db.generationOf target)) ∨
      (d.mailboxId = source ∧ d.mailboxId ≠ target ∧ db.deliveryOf? d.messageId target = none ∧
        d' = { d with mailboxId := target, mailboxGeneration := db.generationOf target }) ∨
      (d.mailboxId ≠ source ∨ d.mailboxId = target) ∧
        (d.mailboxId = target → db.deliveryOf? d.messageId source = none) ∧ d' = d := by
  unfold mergeRow at h
  split at h
  · rename_i ht
    split at h
    · rename_i copy hcopy
      cases h
      exact .inl ⟨ht, copy, hcopy, rfl⟩
    · rename_i hcopy
      cases h
      exact .inr (.inr ⟨.inr ht, fun _ => hcopy, rfl⟩)
  · rename_i ht
    split at h
    · rename_i hs
      split at h
      · cases h
      · rename_i hnone
        cases h
        exact .inr (.inl ⟨hs, ht, by simpa using hnone, rfl⟩)
    · rename_i hs
      cases h
      exact .inr (.inr ⟨.inl hs, fun heq => absurd heq ht, rfl⟩)

/-- A merge leaves the identity of a delivery alone. -/
theorem mergeRow_identity {db : Db} {read : Text → Text} {source target : Nat} {d d' : DeliveryRow}
    (h : db.mergeRow read source target d = some d') :
    d'.rowid = d.rowid ∧ d'.id = d.id ∧ d'.messageId = d.messageId := by
  obtain ⟨-, copy, -, rfl⟩ | ⟨-, -, -, rfl⟩ | ⟨-, -, rfl⟩ := mergeRow_cases h
  · exact ⟨rfl, rfl, rfl⟩
  · exact ⟨rfl, rfl, rfl⟩
  · exact ⟨rfl, rfl, rfl⟩

/-- After a merge a delivery is in the target, or it was elsewhere and stays as it was. -/
theorem mergeRow_mailbox {db : Db} {read : Text → Text} {source target : Nat} {d d' : DeliveryRow}
    (h : db.mergeRow read source target d = some d') :
    d'.mailboxId = target ∧
        (d.mailboxId = target ∨
          d.mailboxId = source ∧ db.deliveryOf? d.messageId target = none) ∨
      d'.mailboxId = d.mailboxId ∧ d.mailboxId ≠ source ∧ d.mailboxId ≠ target := by
  obtain ⟨ht, copy, -, rfl⟩ | ⟨hs, ht, hnone, rfl⟩ | ⟨hor, -, rfl⟩ := mergeRow_cases h
  · exact .inl ⟨ht, .inl ht⟩
  · exact .inl ⟨rfl, .inr ⟨hs, hnone⟩⟩
  · by_cases ht : d'.mailboxId = target
    · exact .inl ⟨ht, .inl ht⟩
    · exact .inr ⟨rfl, hor.resolve_right ht, ht⟩

/-- A merge of two mailboxes leaves no delivery in the source. -/
theorem mergeDeliveries_leaves {db : Db} {read : Text → Text} {source target : Nat}
    (hne : source ≠ target) :
    ∀ d ∈ db.deliveries.filterMap (db.mergeRow read source target), d.mailboxId ≠ source := by
  intro d' hd' heq
  obtain ⟨d, -, hrow⟩ := List.mem_filterMap.mp hd'
  rcases mergeRow_mailbox hrow with ⟨hbox, -⟩ | ⟨hbox, hs, -⟩
  · exact hne (heq.symm.trans hbox)
  · exact hs (hbox.symm.trans heq)

/-- A mailbox without deliveries can be deleted. -/
theorem deleteMailbox_eq {db : Db} {id : Nat} (h : ∀ d ∈ db.deliveries, d.mailboxId ≠ id) :
    db.deleteMailbox id = .ok
      { db with
        mailboxes := db.mailboxes.filter fun b => b.id ≠ id
        bulkDeleteJobs := db.bulkDeleteJobs.filter fun j => j.mailboxId ≠ id } := by
  have hnone : (db.deliveries.any fun d => d.mailboxId = id) = false := by
    rw [List.any_eq_false]
    intro d hd heq
    exact h d hd (of_decide_eq_true heq)
  rw [deleteMailbox, hnone, if_neg nofun]

end Db

namespace Db.Consistent

variable {db : Db}

theorem mergeDeliveries (h : db.Consistent) {read : Text → Text} {source target : Nat}
    (ht : ∃ b ∈ db.mailboxes, b.id = target) : (db.mergeDeliveries read source target).Consistent := by
  have hset : Consistent
      { db with deliveries := db.deliveries.filterMap (db.mergeRow read source target) } := by
    refine h.setDeliveries ?_ ?_ ?_
    · intro d _ d' hd'
      exact mergeRow_identity hd'
    · intro d hd d' hd'
      rcases mergeRow_mailbox hd' with ⟨hbox, -⟩ | ⟨hbox, -, -⟩
      · rw [hbox]
        exact ht
      · rw [hbox]
        exact h.delivery_mailboxes d hd
    · intro d hd e he d' hd' e' he' hmsg hbox
      rcases mergeRow_mailbox hd' with ⟨hd1, hd2⟩ | ⟨hd1, hd2, hd3⟩ <;>
        rcases mergeRow_mailbox he' with ⟨he1, he2⟩ | ⟨he1, he2, he3⟩
      · rcases hd2 with hd2 | ⟨hd2, hnone⟩ <;> rcases he2 with he2 | ⟨he2, hnone'⟩
        · exact h.delivery_eq hd he hmsg (hd2.trans he2.symm)
        · exact absurd hd2 (deliveryOf?_eq_none.mp hnone' d hd hmsg)
        · exact absurd he2 (deliveryOf?_eq_none.mp hnone e he hmsg.symm)
        · exact h.delivery_eq hd he hmsg (hd2.trans he2.symm)
      · exact absurd (he1.symm.trans (hbox.symm.trans hd1)) he3
      · exact absurd (hd1.symm.trans (hbox.trans he1)) hd3
      · exact h.delivery_eq hd he hmsg (hd1.symm.trans (hbox.trans he1))
  exact { hset with }

/-- Rows of the delivery table that keep their mailbox may be rewritten. -/
theorem updateDeliveries (h : db.Consistent) {p : DeliveryRow → Bool}
    {f : DeliveryRow → DeliveryRow}
    (hf : ∀ d, (f d).rowid = d.rowid ∧ (f d).id = d.id ∧ (f d).messageId = d.messageId ∧
      (f d).mailboxId = d.mailboxId) :
    Consistent { db with deliveries := updateWhere p f db.deliveries } := by
  have hmap {α : Type} (g : DeliveryRow → α) (hg : ∀ d, g (f d) = g d) :
      (updateWhere p f db.deliveries).map g = db.deliveries.map g := map_updateWhere hg _
  refine { h with
    delivery_ids := ?_, delivery_rowids := ?_, delivery_rowids_pos := ?_, delivery_keys := ?_,
    delivery_mailboxes := ?_, delivery_messages := ?_ }
  · exact h.delivery_ids.updateWhere fun d => (hf d).2.1
  · have hsorted := h.delivery_rowids
    have heq := hmap DeliveryRow.rowid fun d => (hf d).1
    rw [← List.pairwise_map (f := DeliveryRow.rowid) (R := (· < ·))] at hsorted ⊢
    rw [heq]
    exact hsorted
  · intro d hd
    obtain ⟨e, he, rfl⟩ := mem_updateWhere.mp hd
    split
    · rw [(hf e).1]
      exact h.delivery_rowids_pos e he
    · exact h.delivery_rowids_pos e he
  · exact h.delivery_keys.updateWhere fun d => by rw [(hf d).2.2.1, (hf d).2.2.2]
  · intro d hd
    obtain ⟨e, he, rfl⟩ := mem_updateWhere.mp hd
    split
    · rw [(hf e).2.2.2]
      exact h.delivery_mailboxes e he
    · exact h.delivery_mailboxes e he
  · intro d hd
    obtain ⟨e, he, rfl⟩ := mem_updateWhere.mp hd
    split
    · rw [(hf e).2.2.1]
      exact h.delivery_messages e he
    · exact h.delivery_messages e he

theorem filterDeliveries (h : db.Consistent) (p : DeliveryRow → Bool) :
    Consistent { db with deliveries := db.deliveries.filter p } :=
  { h with
    delivery_ids := h.delivery_ids.filter p
    delivery_rowids := h.delivery_rowids.filter p
    delivery_rowids_pos := fun d hd => h.delivery_rowids_pos d (List.mem_of_mem_filter hd)
    delivery_keys := h.delivery_keys.filter p
    delivery_mailboxes := fun d hd => h.delivery_mailboxes d (List.mem_of_mem_filter hd)
    delivery_messages := fun d hd => h.delivery_messages d (List.mem_of_mem_filter hd) }

theorem addDelivery (h : db.Consistent) {id messageId rcptTo : Text} {mailboxId generation : Nat}
    {deliveredAt : Timestamp} {expiresAt : Option Timestamp}
    (hc : db.deliveryConflict id messageId mailboxId = none)
    (hp : db.deliveryParentsExist messageId mailboxId) :
    (db.addDelivery id messageId mailboxId rcptTo deliveredAt expiresAt generation).Consistent := by
  obtain ⟨hid, hkey⟩ := deliveryConflict_none hc
  obtain ⟨hmsg, hbox⟩ := deliveryParentsExist_iff.mp hp
  refine { h with
    delivery_ids := ?_, delivery_rowids := ?_, delivery_rowids_pos := ?_, delivery_keys := ?_,
    delivery_mailboxes := ?_, delivery_messages := ?_ }
  · exact h.delivery_ids.append_singleton hid
  · rw [Db.addDelivery, List.pairwise_append]
    refine ⟨h.delivery_rowids, List.pairwise_singleton _ _, ?_⟩
    intro d hd e he
    rw [List.mem_singleton.mp he]
    exact Nat.lt_succ_of_le (le_foldr_max (List.mem_map_of_mem hd))
  · intro d hd
    rcases List.mem_append.mp hd with hd | hd
    · exact h.delivery_rowids_pos d hd
    · rw [List.mem_singleton.mp hd]
      exact Nat.succ_pos _
  · refine h.delivery_keys.append_singleton ?_
    intro d hd heq
    exact hkey d hd (Prod.mk.inj heq)
  · intro d hd
    rcases List.mem_append.mp hd with hd | hd
    · exact h.delivery_mailboxes d hd
    · rw [List.mem_singleton.mp hd]
      exact hbox
  · intro d hd
    rcases List.mem_append.mp hd with hd | hd
    · exact h.delivery_messages d hd
    · rw [List.mem_singleton.mp hd]
      exact hmsg

theorem deleteMessages (h : db.Consistent) (ids : List Text) :
    (db.deleteMessages ids).Consistent := by
  refine { h with
    delivery_ids := h.delivery_ids.filter _, delivery_rowids := h.delivery_rowids.filter _,
    delivery_rowids_pos := fun d hd => h.delivery_rowids_pos d (List.mem_of_mem_filter hd),
    delivery_keys := h.delivery_keys.filter _, delivery_mailboxes := ?_, delivery_messages := ?_,
    message_ids := h.message_ids.filter _, attachment_keys := h.attachment_keys.filter _,
    attachment_messages := ?_ }
  · intro d hd
    exact h.delivery_mailboxes d (List.mem_of_mem_filter hd)
  · intro d hd
    obtain ⟨hd, hkeep⟩ := List.mem_filter.mp hd
    obtain ⟨m, hm, hid⟩ := h.delivery_messages d hd
    exact ⟨m, List.mem_filter.mpr ⟨hm, by rw [hid]; exact hkeep⟩, hid⟩
  · intro a ha
    obtain ⟨ha, hkeep⟩ := List.mem_filter.mp ha
    obtain ⟨m, hm, hid⟩ := h.attachment_messages a ha
    exact ⟨m, List.mem_filter.mpr ⟨hm, by rw [hid]; exact hkeep⟩, hid⟩

/-- A job may change its progress; it never becomes incomplete again. -/
theorem updateJobs (h : db.Consistent) {p : BulkDeleteJob → Bool}
    {f : BulkDeleteJob → BulkDeleteJob}
    (hf : ∀ j ∈ db.bulkDeleteJobs, p j → (f j).id = j.id ∧ (f j).mailboxId = j.mailboxId ∧
      ((f j).incomplete → j.incomplete)) :
    Consistent { db with bulkDeleteJobs := updateWhere p f db.bulkDeleteJobs } := by
  have hrow (j : BulkDeleteJob) (hj : j ∈ db.bulkDeleteJobs) :
      (if p j then f j else j).id = j.id ∧ (if p j then f j else j).mailboxId = j.mailboxId ∧
        ((if p j then f j else j).incomplete → j.incomplete) := by
    split
    · rename_i hp
      exact hf j hj hp
    · exact ⟨rfl, rfl, id⟩
  have hids : (updateWhere p f db.bulkDeleteJobs).map BulkDeleteJob.id =
      db.bulkDeleteJobs.map BulkDeleteJob.id := by
    rw [updateWhere, List.map_map]
    apply List.map_congr_left
    intro j hj
    exact (hrow j hj).1
  refine { h with job_ids := ?_, job_mailboxes := ?_, job_incomplete := ?_ }
  · unfold UniqueKey
    rw [hids]
    exact h.job_ids
  · intro j' hj'
    obtain ⟨j, hj, rfl⟩ := mem_updateWhere.mp hj'
    rw [(hrow j hj).2.1]
    exact h.job_mailboxes j hj
  · intro j' hj' k' hk' hbox hinc hinc'
    obtain ⟨j, hj, rfl⟩ := mem_updateWhere.mp hj'
    obtain ⟨k, hk, rfl⟩ := mem_updateWhere.mp hk'
    rw [(hrow j hj).2.1, (hrow k hk).2.1] at hbox
    rw [h.job_incomplete j hj k hk hbox ((hrow j hj).2.2 hinc) ((hrow k hk).2.2 hinc')]

theorem markBulkDeleteJobFailed (h : db.Consistent) (jobId : Text) :
    (db.markBulkDeleteJobFailed jobId).Consistent := by
  refine h.updateJobs ?_
  intro j _ _
  by_cases hdone : j.status = .succeeded
  · simp [hdone]
  · simp [hdone, BulkDeleteJob.incomplete]

theorem refreshDeletionSummaries (h : db.Consistent) (p : MailboxRow → Bool) (now : Timestamp) :
    (db.refreshDeletionSummaries p now).Consistent :=
  h.setColumns ⟨fun _ => rfl, fun _ => rfl, fun _ => rfl, fun _ => rfl⟩

theorem softDeleteWhere (h : db.Consistent) (p : DeliveryRow → Bool) (deletedAt : Timestamp) :
    (db.softDeleteWhere p deletedAt).Consistent :=
  h.updateDeliveries fun _ => ⟨rfl, rfl, rfl, rfl⟩

theorem advanceBulkDeleteJob (h : db.Consistent) {job : BulkDeleteJob}
    (hjob : job ∈ db.bulkDeleteJobs) (hinc : job.incomplete) (batchSize : Nat) (now : Timestamp) :
    (db.advanceBulkDeleteJob job batchSize now).Consistent := by
  have hdel := h.softDeleteWhere (inPage job (db.bulkDeletePage job batchSize)) job.deletedAt
  have hupd {db₁ : Db} (h₁ : db₁.Consistent) (hjobs : db₁.bulkDeleteJobs = db.bulkDeleteJobs)
      (status : JobStatus) (cursor count : Nat) :
      (db₁.updateBulkDeleteJob job.id fun j =>
        { j with status := status, cursorDeliveryRowid := cursor, deletedCount := count }).Consistent := by
    refine h₁.updateJobs ?_
    intro j hj hp
    rw [hjobs] at hj
    have hj' : j = job := h.job_ids.eq_of_mem hj hjob (by simpa using hp)
    exact ⟨rfl, rfl, fun _ => hj' ▸ hinc⟩
  unfold Db.advanceBulkDeleteJob
  dsimp only
  split
  · exact hupd (hdel.refreshDeletionSummaries _ now) rfl _ _ _
  · exact hupd hdel rfl _ _ _

theorem startBulkDeleteJob (h : db.Consistent) {jobId : Text} {mailbox : MailboxRow}
    {deletedAt : Timestamp} (hmailbox : mailbox ∈ db.mailboxes)
    (hnone : ∀ j ∈ db.bulkDeleteJobs, j.mailboxId = mailbox.id → j.incomplete = false)
    (hfresh : ∀ j ∈ db.jobsKept mailbox.id, j.id ≠ jobId) :
    (db.startBulkDeleteJob jobId mailbox deletedAt).Consistent := by
  have hids : (updateWhere (fun b : MailboxRow => b.id = mailbox.id)
      (fun b => { b with bulkDeleteGeneration := mailbox.bulkDeleteGeneration + 1 })
      db.mailboxes).map MailboxRow.id = db.mailboxes.map MailboxRow.id := by
    apply map_updateWhere
    intro b
    rfl
  have hmail := h.setMailboxes hids (h.mailbox_addresses.updateWhere fun _ => rfl) (by
    intro b hb
    obtain ⟨c, hc, rfl⟩ := mem_updateWhere.mp hb
    split
    · exact h.mailbox_domains c hc
    · exact h.mailbox_domains c hc)
  have hexists (x : Nat) (hx : ∃ b ∈ db.mailboxes, b.id = x) :
      ∃ b ∈ (db.startBulkDeleteJob jobId mailbox deletedAt).mailboxes, b.id = x := by
    rw [← List.mem_map] at hx ⊢
    exact hids ▸ hx
  refine { hmail with job_ids := ?_, job_mailboxes := ?_, job_incomplete := ?_ }
  · exact (h.job_ids.filter _).append_singleton hfresh
  · intro j hj
    rcases List.mem_append.mp hj with hj | hj
    · exact hexists _ (h.job_mailboxes j (List.mem_of_mem_filter hj))
    · rw [List.mem_singleton.mp hj]
      exact hexists _ ⟨mailbox, hmailbox, rfl⟩
  · intro j hj j' hj' hbox hinc hinc'
    rcases List.mem_append.mp hj with hj | hj <;> rcases List.mem_append.mp hj' with hj' | hj'
    · exact h.job_incomplete j (List.mem_of_mem_filter hj) j' (List.mem_of_mem_filter hj') hbox
        hinc hinc'
    · rw [List.mem_singleton.mp hj'] at hbox
      rw [hnone j (List.mem_of_mem_filter hj) hbox] at hinc
      cases hinc
    · rw [List.mem_singleton.mp hj] at hbox
      rw [hnone j' (List.mem_of_mem_filter hj') hbox.symm] at hinc'
      cases hinc'
    · rw [List.mem_singleton.mp hj, List.mem_singleton.mp hj']

end Db.Consistent

variable {rules : EditRules} {db db' : Db}

theorem Edit.consistent (h : db.Consistent) (hedit : Edit rules db db') : db'.Consistent := by
  cases hedit with
  | addMailbox hins => exact h.insertMailbox hins
  | setIdentity _ _ hupd => exact h.setIdentity hupd
  | setColumns hf => exact h.setColumns hf
  | mergeDeliveries _ ht => exact h.mergeDeliveries ht
  | dropMailboxes hp => exact h.dropMailboxes hp
  | addDelivery _ hc hp => exact h.addDelivery hc hp
  | softDelete => exact h.softDeleteWhere _ _
  | dropDeliveries => exact h.filterDeliveries _
  | dropMessages => exact h.deleteMessages _
  | createJob _ hjob =>
    obtain ⟨mailbox, hmailbox, rfl, ⟨job, -, -, -, -, rfl⟩ | ⟨hnone, hfresh, -, rfl⟩⟩ :=
      Db.createOrResumeBulkDeleteJob_ok hjob
    · exact h
    · exact h.startBulkDeleteJob hmailbox hnone hfresh
  | processJob hjob =>
    obtain ⟨job, hmem, -, -, ⟨-, rfl⟩ | ⟨hinc, rfl⟩⟩ := Db.processBulkDeleteJobBatch_ok hjob
    · exact h
    · exact h.advanceBulkDeleteJob hmem hinc _ _
  | failJob => exact h.markBulkDeleteJobFailed _
  | setDomains hids hroots hmail _ =>
    exact { h with domain_ids := hids, domain_roots := hroots, mailbox_domains := hmail }
  | addMessage hmsg _ =>
    obtain ⟨hfresh, rfl⟩ := Db.insertMessage_ok hmsg
    refine { h with
      message_ids := h.message_ids.append_singleton hfresh
      delivery_messages := ?_
      attachment_messages := ?_ }
    · intro d hd
      obtain ⟨m, hm, hid⟩ := h.delivery_messages d hd
      exact ⟨m, List.mem_append_left _ hm, hid⟩
    · intro a ha
      obtain ⟨m, hm, hid⟩ := h.attachment_messages a ha
      exact ⟨m, List.mem_append_left _ hm, hid⟩
  | addAttachment hatt =>
    obtain ⟨hfresh, hmsg, rfl⟩ := Db.insertAttachment_ok hatt
    refine { h with
      attachment_keys := h.attachment_keys.append_singleton hfresh
      attachment_messages := ?_ }
    intro a ha
    rcases List.mem_append.mp ha with ha | ha
    · exact h.attachment_messages a ha
    · rw [List.mem_singleton.mp ha]
      exact hmsg
  | bookkeeping => exact { h with }

theorem Db.empty_consistent : Db.empty.Consistent := by
  constructor <;> simp [Db.empty, UniqueKey]

theorem Edits.consistent (h : db.Consistent) (hedits : Edits rules db db') : db'.Consistent := by
  induction hedits with
  | refl => exact h
  | tail _ hedit ih => exact hedit.consistent ih

end RapidInbox

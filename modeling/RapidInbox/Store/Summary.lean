import RapidInbox.Store.ServiceEdits

/-!
# The summary columns of a mailbox

`message_count` and `latest_message_at` repeat what the deliveries say.  Some operations recompute
them and some adjust them; a mailbox that an operation does not name is not affected by it, and the
one it names is exact again when the operation is done.
-/

namespace RapidInbox

open Table Relation

namespace Db

/-- The derived columns of a mailbox are those of its active deliveries. -/
structure SummaryExact (db : Db) (b : MailboxRow) : Prop where
  count : b.messageCount = (db.activeIn b.id).length
  latest : b.latestMessageAt = latestOf (db.activeIn b.id)

instance (db : Db) (b : MailboxRow) : Decidable (db.SummaryExact b) :=
  decidable_of_iff (b.messageCount = (db.activeIn b.id).length ∧
    b.latestMessageAt = latestOf (db.activeIn b.id)) ⟨fun h => ⟨h.1, h.2⟩, fun h => ⟨h.1, h.2⟩⟩

/-- The derived columns are those the mailbox will have with one more active delivery at `t`. -/
structure SummaryPending (db : Db) (t : Timestamp) (b : MailboxRow) : Prop where
  count : b.messageCount = (db.activeIn b.id).length + 1
  latest : b.latestMessageAt = some (max ((latestOf (db.activeIn b.id)).getD t) t)

def ExactAt (db : Db) (id : Nat) : Prop := ∀ b ∈ db.mailboxes, b.id = id → db.SummaryExact b

def PendingAt (db : Db) (t : Timestamp) (id : Nat) : Prop :=
  ∀ b ∈ db.mailboxes, b.id = id → db.SummaryPending t b

/-- Every mailbox without an incomplete bulk-delete job has exact summary columns. -/
def SummariesExact (db : Db) : Prop :=
  ∀ b ∈ db.mailboxes, db.hasIncompleteJob b.id = false → db.SummaryExact b

instance (db : Db) : Decidable db.SummariesExact :=
  inferInstanceAs (Decidable (∀ b ∈ db.mailboxes, _ → _))

/-- The same, up to a set of mailboxes that an operation still works on. -/
def ExactExcept (db : Db) (dirty : Nat → Prop) : Prop :=
  ∀ id, ¬dirty id → db.hasIncompleteJob id = false → db.ExactAt id

variable {db db' : Db} {dirty dirty' : Nat → Prop}

theorem summariesExact_iff : db.SummariesExact ↔ db.ExactExcept fun _ => False := by
  constructor
  · rintro h id - hjob b hb rfl
    exact h b hb hjob
  · intro h b hb hjob
    exact h b.id id hjob b hb rfl

/-- What a change leaves alone about a mailbox: its columns, its active deliveries and its jobs. -/
structure SummaryFrame (db db' : Db) (id : Nat) : Prop where
  rows : ∀ b' ∈ db'.mailboxes, b'.id = id → ∃ b ∈ db.mailboxes, b.id = id ∧
    b.messageCount = b'.messageCount ∧ b.latestMessageAt = b'.latestMessageAt
  active : db'.activeIn id = db.activeIn id
  jobs : db'.hasIncompleteJob id = false → db.hasIncompleteJob id = false

theorem SummaryFrame.exactAt {id : Nat} (h : SummaryFrame db db' id) (hexact : db.ExactAt id) :
    db'.ExactAt id := by
  rintro b' hb' rfl
  obtain ⟨b, hb, hid, hcount, hlatest⟩ := h.rows b' hb' rfl
  have hb := hexact b hb hid
  refine ⟨?_, ?_⟩
  · rw [← hcount, hb.count, hid, h.active]
  · rw [← hlatest, hb.latest, hid, h.active]

/-- A change that frames every mailbox or makes it exact. -/
theorem ExactExcept.step (h : db.ExactExcept dirty)
    (hstep : ∀ id, ¬dirty' id → ¬dirty id ∧ SummaryFrame db db' id ∨ db'.ExactAt id) :
    db'.ExactExcept dirty' := by
  intro id hid hjob
  rcases hstep id hid with ⟨hclean, hframe⟩ | hexact
  · exact hframe.exactAt (h id hclean (hframe.jobs hjob))
  · exact hexact

theorem ExactExcept.frame (h : db.ExactExcept dirty)
    (hframe : ∀ id, ¬dirty id → SummaryFrame db db' id) : db'.ExactExcept dirty :=
  h.step fun id hid => .inl ⟨hid, hframe id hid⟩

theorem SummaryFrame.refl (db : Db) (id : Nat) : SummaryFrame db db id :=
  ⟨fun b hb hid => ⟨b, hb, hid, rfl, rfl⟩, rfl, fun h => h⟩

theorem SummaryFrame.trans {db'' : Db} {id : Nat} (h : SummaryFrame db db' id)
    (h' : SummaryFrame db' db'' id) : SummaryFrame db db'' id := by
  refine ⟨?_, h'.active.trans h.active, fun hjob => h.jobs (h'.jobs hjob)⟩
  intro b'' hb'' hid''
  obtain ⟨b', hb', hid', hcount', hlatest'⟩ := h'.rows b'' hb'' hid''
  obtain ⟨b, hb, hid, hcount, hlatest⟩ := h.rows b' hb' hid'
  exact ⟨b, hb, hid, hcount.trans hcount', hlatest.trans hlatest'⟩

/-! ## Statements -/

theorem SameMail.summaryFrame (h : db.SameMail db') (id : Nat) : SummaryFrame db db' id := by
  refine ⟨?_, ?_, ?_⟩
  · intro b hb hid
    exact ⟨b, h.mailboxes ▸ hb, hid, rfl, rfl⟩
  · unfold activeIn
    rw [h.deliveries]
  · unfold hasIncompleteJob
    rw [h.bulkDeleteJobs]
    exact fun h => h

/-- An update of the mailboxes leaves those alone that it does not select. -/
theorem updateWhere_frame {p : MailboxRow → Bool} {f : MailboxRow → MailboxRow} {id : Nat}
    (hid : ∀ b, (f b).id = b.id)
    (hp : ∀ b ∈ db.mailboxes, b.id = id → p b →
      (f b).messageCount = b.messageCount ∧ (f b).latestMessageAt = b.latestMessageAt) :
    SummaryFrame db { db with mailboxes := updateWhere p f db.mailboxes } id := by
  refine ⟨?_, rfl, fun h => h⟩
  intro b' hb' hid'
  obtain ⟨b, hb, rfl⟩ := mem_updateWhere.mp hb'
  split at hid'
  · rename_i hpb
    rw [if_pos hpb]
    rw [hid b] at hid'
    exact ⟨b, hb, hid', (hp b hb hid' hpb).1.symm, (hp b hb hid' hpb).2.symm⟩
  · rename_i hpb
    rw [if_neg hpb]
    exact ⟨b, hb, hid', rfl, rfl⟩

theorem updateMailbox_frame {target id : Nat} {f : MailboxRow → MailboxRow}
    (hid : ∀ b, (f b).id = b.id) (hne : id ≠ target) :
    SummaryFrame db (db.updateMailbox target f) id := by
  refine updateWhere_frame hid ?_
  intro b _ hb hp
  exact absurd (hb.symm.trans (of_decide_eq_true hp)) hne

/-- An update of columns that the summary does not read. -/
theorem updateMailbox_frame_all {target : Nat} {f : MailboxRow → MailboxRow}
    (hid : ∀ b, (f b).id = b.id) (hcount : ∀ b, (f b).messageCount = b.messageCount)
    (hlatest : ∀ b, (f b).latestMessageAt = b.latestMessageAt) (id : Nat) :
    SummaryFrame db (db.updateMailbox target f) id :=
  updateWhere_frame hid fun b _ _ _ => ⟨hcount b, hlatest b⟩

theorem updateMailboxIdentity_frame {target : Nat} {m : DomainMatch}
    (h : db.updateMailboxIdentity target m = .ok db') (id : Nat) : SummaryFrame db db' id := by
  obtain ⟨-, -, rfl⟩ := updateMailboxIdentity_ok h
  refine updateMailbox_frame_all ?_ ?_ ?_ id
  · exact fun _ => rfl
  · exact fun _ => rfl
  · exact fun _ => rfl

theorem insertMailbox_frame {m : DomainMatch} {seenAt : Timestamp} {count new id : Nat}
    {latest : Option Timestamp} (h : db.insertMailbox m seenAt count latest = .ok (new, db'))
    (hne : id ≠ new) : SummaryFrame db db' id := by
  obtain ⟨-, -, -, rfl⟩ := insertMailbox_ok h
  refine ⟨?_, rfl, fun h => h⟩
  intro b hb hid
  rcases List.mem_append.mp hb with hb | hb
  · exact ⟨b, hb, hid, rfl, rfl⟩
  · rw [List.mem_singleton.mp hb] at hid
    exact absurd hid.symm hne

theorem deleteMailbox_frame {source id : Nat} (h : db.deleteMailbox source = .ok db')
    (hne : id ≠ source) : SummaryFrame db db' id := by
  obtain ⟨-, rfl⟩ := deleteMailbox_ok h
  refine ⟨fun b hb hid => ⟨b, List.mem_of_mem_filter hb, hid, rfl, rfl⟩, rfl, ?_⟩
  intro hjob
  rw [hasIncompleteJob, List.any_eq_false] at hjob ⊢
  intro j hj hinc
  refine hjob j (List.mem_filter.mpr ⟨hj, ?_⟩) hinc
  rw [Bool.and_eq_true, decide_eq_true_iff] at hinc
  rw [decide_eq_true_iff, hinc.1]
  exact hne

theorem deleteMailbox_exactAt {source : Nat} (h : db.deleteMailbox source = .ok db') :
    db'.ExactAt source := by
  obtain ⟨-, rfl⟩ := deleteMailbox_ok h
  intro b hb hid
  have := (List.mem_filter.mp hb).2
  simp [hid] at this

theorem activeIn_mergeDeliveries {read : Text → Text} {source target id : Nat} (hs : id ≠ source) (ht : id ≠ target) :
    (db.mergeDeliveries read source target).activeIn id = db.activeIn id := by
  refine filter_filterMap_eq ?_ ?_
  · intro d _ hd
    have hid : d.mailboxId = id := by
      rw [Bool.and_eq_true, decide_eq_true_iff] at hd
      exact hd.1
    rw [mergeRow, hid, if_neg ht, if_neg hs]
  · intro d _ hd d' hd'
    obtain ⟨hdt, copy, -, rfl⟩ | ⟨-, -, -, rfl⟩ | ⟨-, -, rfl⟩ := mergeRow_cases hd'
    · have hne : d.mailboxId ≠ id := fun heq => ht (heq.symm.trans hdt)
      simp [DeliveryRow.collapse, hne]
    · simp [ht.symm]
    · exact hd

theorem mergeDeliveries_frame {read : Text → Text} {source target id : Nat} (hs : id ≠ source) (ht : id ≠ target) :
    SummaryFrame db (db.mergeDeliveries read source target) id :=
  ⟨fun b hb hid => ⟨b, hb, hid, rfl, rfl⟩, activeIn_mergeDeliveries hs ht, fun h => h⟩

theorem addDelivery_frame {did messageId rcptTo : Text} {mailboxId generation id : Nat}
    {deliveredAt : Timestamp} {expiresAt : Option Timestamp} (hne : id ≠ mailboxId) :
    SummaryFrame db
      (db.addDelivery did messageId mailboxId rcptTo deliveredAt expiresAt generation) id := by
  refine ⟨fun b hb hid => ⟨b, hb, hid, rfl, rfl⟩, ?_, fun h => h⟩
  simp [activeIn, addDelivery, hne.symm]

/-- The columns that a refresh writes. -/
theorem withSummary_exactAt {target : Nat} {f : MailboxRow → MailboxRow}
    (hcount : ∀ b, (f b).messageCount = (db.activeIn target).length)
    (hlatest : ∀ b, (f b).latestMessageAt = latestOf (db.activeIn target)) :
    (db.updateMailbox target f).ExactAt target := by
  intro b' hb' hid'
  obtain ⟨b, hb, rfl⟩ := mem_updateWhere.mp hb'
  split at hid'
  · rename_i hp
    rw [if_pos hp]
    refine ⟨?_, ?_⟩
    · rw [hcount, hid']
      rfl
    · rw [hlatest, hid']
      rfl
  · rename_i hp
    simp [hid'] at hp

theorem latestOf_append_singleton (rows : List DeliveryRow) (d : DeliveryRow) :
    latestOf (rows ++ [d]) = some (max ((latestOf rows).getD d.deliveredAt) d.deliveredAt) := by
  unfold latestOf
  cases rows with
  | nil => simp
  | cons e rows =>
    rw [List.cons_append, List.map_cons, List.max?_cons', List.map_append, List.foldl_append]
    rfl

/-- The delivery that a pending summary waits for. -/
theorem addDelivery_exactAt {did messageId rcptTo : Text} {mailboxId generation : Nat}
    {deliveredAt : Timestamp} {expiresAt : Option Timestamp}
    (h : db.PendingAt deliveredAt mailboxId) :
    (db.addDelivery did messageId mailboxId rcptTo deliveredAt expiresAt generation).ExactAt
      mailboxId := by
  rintro b hb rfl
  have hb := h b hb rfl
  obtain ⟨d, hactive, rfl⟩ : ∃ d, (db.addDelivery did messageId b.id rcptTo deliveredAt expiresAt
      generation).activeIn b.id = db.activeIn b.id ++ [d] ∧ d.deliveredAt = deliveredAt := by
    simp [activeIn, addDelivery]
  refine ⟨?_, ?_⟩
  · rw [hactive, List.length_append, hb.count]
    rfl
  · rw [hactive, latestOf_append_singleton, hb.latest]

/-- `touch_mailbox` makes an exact summary wait for a delivery. -/
theorem touch_pendingAt {id : Nat} {t : Timestamp} (h : db.ExactAt id) :
    (db.updateMailbox id fun b => b.touch t).PendingAt t id := by
  intro b' hb' hid'
  obtain ⟨b, hb, rfl⟩ := mem_updateWhere.mp hb'
  split at hid'
  · rename_i hp
    rw [if_pos hp]
    have hb := h b hb hid'
    refine ⟨?_, ?_⟩
    · change b.messageCount + 1 = (db.activeIn b.id).length + 1
      rw [hb.count]
    · change some (max (b.latestMessageAt.getD t) t) = _
      rw [hb.latest]
      rfl
  · rename_i hp
    simp [hid'] at hp

/-- The Python touch does so only when no active delivery is later. -/
theorem assignLatest_pendingAt {id : Nat} {t : Timestamp} (h : db.ExactAt id)
    (hle : ∀ d ∈ db.activeIn id, d.deliveredAt ≤ t) :
    (db.updateMailbox id fun b => b.assignLatest t).PendingAt t id := by
  intro b' hb' hid'
  obtain ⟨b, hb, rfl⟩ := mem_updateWhere.mp hb'
  split at hid'
  · rename_i hp
    rw [if_pos hp]
    have hbid : b.id = id := hid'
    have hb := h b hb hbid
    refine ⟨?_, ?_⟩
    · change b.messageCount + 1 = (db.activeIn b.id).length + 1
      rw [hb.count]
    · change some t = some (max ((latestOf (db.activeIn b.id)).getD t) t)
      congr 1
      symm
      apply Nat.max_eq_right
      rw [hbid]
      cases hlatest : latestOf (db.activeIn id) with
      | none => exact Nat.le_refl t
      | some last =>
        obtain ⟨d, hd, rfl⟩ := List.mem_map.mp (List.max?_mem hlatest)
        exact hle d hd
  · rename_i hp
    simp [hid'] at hp

/-- A fresh mailbox id has no deliveries. -/
theorem activeIn_fresh (hdb : db.Consistent) {id : Nat} (h : db.mailboxSeq < id) :
    db.activeIn id = [] := by
  apply List.filter_eq_nil_iff.mpr
  intro d hd hp
  rw [Bool.and_eq_true, decide_eq_true_iff] at hp
  obtain ⟨b, hb, hid⟩ := hdb.delivery_mailboxes d hd
  have := hdb.mailbox_seq b hb
  omega

theorem insertMailbox_row (hdb : db.Consistent) {m : DomainMatch} {seenAt : Timestamp}
    {count id : Nat} {latest : Option Timestamp}
    (h : db.insertMailbox m seenAt count latest = .ok (id, db')) {b : MailboxRow}
    (hb : b ∈ db'.mailboxes) (hid : b.id = id) :
    b.messageCount = count ∧ b.latestMessageAt = latest ∧ db'.activeIn id = [] := by
  obtain ⟨-, -, rfl, rfl⟩ := insertMailbox_ok h
  have hnil : db.activeIn (db.mailboxSeq + 1) = [] := activeIn_fresh hdb (Nat.lt_succ_self _)
  rcases List.mem_append.mp hb with hb | hb
  · have := hdb.mailbox_seq b hb
    omega
  · rw [List.mem_singleton.mp hb]
    exact ⟨rfl, rfl, hnil⟩

theorem insertMailbox_pendingAt (hdb : db.Consistent) {m : DomainMatch} {t : Timestamp} {id : Nat}
    (h : db.insertMailbox m t 1 (some t) = .ok (id, db')) : db'.PendingAt t id := by
  intro b hb hid
  obtain ⟨hcount, hlatest, hnil⟩ := insertMailbox_row hdb h hb hid
  refine ⟨?_, ?_⟩
  · rw [hcount, hid, hnil]
    rfl
  · rw [hlatest, hid, hnil]
    simp [latestOf]

theorem insertMailbox_exactAt (hdb : db.Consistent) {m : DomainMatch} {t : Timestamp} {id : Nat}
    (h : db.insertMailbox m t 0 none = .ok (id, db')) : db'.ExactAt id := by
  intro b hb hid
  obtain ⟨hcount, hlatest, hnil⟩ := insertMailbox_row hdb h hb hid
  refine ⟨?_, ?_⟩
  · rw [hcount, hid, hnil]
    rfl
  · rw [hlatest, hid, hnil]
    rfl

end Db
end RapidInbox

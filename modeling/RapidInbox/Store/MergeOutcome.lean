import Mathlib.Data.List.TakeWhile
import RapidInbox.Store.MergeStatements
import RapidInbox.Store.RecoveryMailbox

/-!
# What a merge leaves

`promote_mailbox_ownership` merges a mailbox into another without losing visible mail, and the
daemon's `merge_mailbox_into` leaves the same rows unless a note has a NUL in it.
-/

namespace RapidInbox

open Table

namespace Db

variable {db : Db}

theorem mailbox?_updateMailbox {f : MailboxRow → MailboxRow} (hf : ∀ b, (f b).id = b.id)
    (db : Db) (id : Nat) : (db.updateMailbox id f).mailbox? id = (db.mailbox? id).map f :=
  find?_updateWhere hf db.mailboxes id

theorem mailbox?_eq_some (hdb : db.Consistent) {b : MailboxRow} (hb : b ∈ db.mailboxes) :
    db.mailbox? b.id = some b :=
  hdb.mailbox_ids.find?_eq_some hb rfl

theorem mergeRow_congr {db' : Db} {target : Nat} (hdel : db'.deliveries = db.deliveries)
    (hgen : db'.generationOf target = db.generationOf target) (read : Text → Text) (source : Nat) :
    db'.mergeRow read source target = db.mergeRow read source target := by
  have hfind : db'.deliveryOf? = db.deliveryOf? := by
    funext messageId mailboxId
    rw [deliveryOf?, hdel, deliveryOf?]
  funext d
  rw [mergeRow, hfind, hgen, mergeRow]

/-- The row of the target after a promotion by a merge, for the active deliveries it then has. -/
def mergedTarget (source target : MailboxRow) (targetRoot : Text) (m : DomainMatch)
    (active : List DeliveryRow) : MailboxRow :=
  let promoted :=
    if mailboxNeedsOwnershipPromotion target targetRoot m then target.withIdentity m else target
  { (promoted.mergeFlags source).withSummary active with
    firstSeenAt := min target.firstSeenAt (min source.firstSeenAt target.firstSeenAt)
    lastSeenAt := max target.lastSeenAt (max source.lastSeenAt target.lastSeenAt) }

/-- The tables after a promotion by a merge. -/
structure PromotedByMerge (db : Db) (source target : MailboxRow) (targetRoot : Text)
    (m : DomainMatch) (db' : Db) : Prop where
  deliveries : db'.deliveries = db.deliveries.filterMap (db.mergeRow id source.id target.id)
  source_gone : ∀ b ∈ db'.mailboxes, b.id ≠ source.id
  target_row : db'.mailbox? target.id =
    some (mergedTarget source target targetRoot m (db'.activeIn target.id))

theorem promoteTarget_eq (hdb : db.Consistent) {target : MailboxRow} (targetRoot : Text)
    {m : DomainMatch} (ht : target ∈ db.mailboxes) (hdom : ∃ d ∈ db.domains, d.id = m.domainId)
    (haddr : target.addressCanonical = m.addressCanonical) :
    ∃ promoted, db.promoteTarget target targetRoot m = .ok promoted ∧
      promoted.deliveries = db.deliveries ∧
      promoted.mailbox? target.id = some
        (if mailboxNeedsOwnershipPromotion target targetRoot m then target.withIdentity m
          else target) := by
  unfold promoteTarget
  by_cases hneeds : mailboxNeedsOwnershipPromotion target targetRoot m = true
  · rw [if_pos hneeds, if_pos hneeds]
    refine ⟨_, updateMailboxIdentity_eq hdb ?_ hdom, rfl, ?_⟩
    · intro c hc hca
      rw [hdb.mailbox_addresses.eq_of_mem hc ht (hca.trans haddr.symm)]
    · rw [mailbox?_updateMailbox (f := fun b => b.withIdentity m) (fun _ => rfl),
        mailbox?_eq_some hdb ht, Option.map_some]
  · rw [if_neg hneeds, if_neg hneeds]
    exact ⟨db, rfl, rfl, mailbox?_eq_some hdb ht⟩

/-- A promotion by a merge succeeds. -/
theorem promoteByMerge_tables (hdb : db.Consistent) {source target : MailboxRow} (targetRoot : Text)
    {m : DomainMatch} (ht : target ∈ db.mailboxes) (hne : source.id ≠ target.id)
    (hdom : ∃ d ∈ db.domains, d.id = m.domainId)
    (haddr : target.addressCanonical = m.addressCanonical) :
    ∃ result db', db.promoteByMerge source target targetRoot m = .ok (result, db') ∧
      db.PromotedByMerge source target targetRoot m db' := by
  obtain ⟨promoted, hpromote, hdel, hrow⟩ := promoteTarget_eq hdb targetRoot ht hdom haddr
  have hgen : (promoted.updateMailbox target.id fun b => b.mergeFlags source).generationOf
      target.id = db.generationOf target.id := by
    rw [generationOf, mailbox?_updateMailbox (mergeFlags_keeps source).id, hrow, generationOf,
      mailbox?_eq_some hdb ht]
    split <;> rfl
  have hflags : (promoted.updateMailbox target.id fun b => b.mergeFlags source).deliveries =
      db.deliveries := hdel
  have hmerge : (promoted.updateMailbox target.id fun b => b.mergeFlags source).mergeRow id source.id
      target.id = db.mergeRow id source.id target.id :=
    mergeRow_congr hflags hgen id source.id
  have hrows : ((promoted.updateMailbox target.id fun b => b.mergeFlags source).mergeDeliveries id
      source.id target.id).deliveries =
        db.deliveries.filterMap (db.mergeRow id source.id target.id) := by
    rw [mergeDeliveries, hflags, hmerge]
  unfold promoteByMerge
  rw [hpromote]
  dsimp only
  rw [deleteMailbox_eq (mergeDeliveries_leaves hne)]
  refine ⟨_, _, rfl, hrows, ?_, ?_⟩
  · intro b hb
    simpa using (List.mem_filter.mp hb).2
  · rw [mailbox?]
    dsimp only
    rw [find?_filter_ne (Ne.symm hne)]
    have hfind := mailbox?_updateMailbox (refreshRehomed_keeps
      (((promoted.updateMailbox target.id fun b => b.mergeFlags source).mergeDeliveries id source.id
        target.id).activeIn target.id) (min source.firstSeenAt target.firstSeenAt)
      (max source.lastSeenAt target.lastSeenAt)).id
      ((promoted.updateMailbox target.id fun b => b.mergeFlags source).mergeDeliveries id source.id
        target.id) target.id
    refine hfind.trans ?_
    have hflagged : ((promoted.updateMailbox target.id fun b => b.mergeFlags source).mergeDeliveries
        id source.id target.id).mailbox? target.id = _ :=
      (mailbox?_updateMailbox (mergeFlags_keeps source).id promoted target.id).trans
        (by rw [hrow, Option.map_some])
    rw [hflagged, Option.map_some]
    unfold mergedTarget
    split <;> rfl

/-! ## Visible mail -/

/-- A message is visible in a mailbox. -/
def Shows (db : Db) (mailboxId : Nat) (messageId : Text) : Prop :=
  ∃ d ∈ db.deliveries, d.mailboxId = mailboxId ∧ d.messageId = messageId ∧ d.status = .active

/-- A message has a delivery, visible or not. -/
def Holds (db : Db) (mailboxId : Nat) (messageId : Text) : Prop :=
  ∃ d ∈ db.deliveries, d.mailboxId = mailboxId ∧ d.messageId = messageId

/-- An expiry is at least as late as another; no expiry is later than every time. -/
def ExpiresNoEarlier (expiry other : Option Timestamp) : Prop :=
  ∀ t ∈ expiry, ∃ t' ∈ other, t' ≤ t

/-- A delivery that stands for two copies of a message. -/
structure MergedDelivery (source target d : DeliveryRow) : Prop where
  messageId : d.messageId = target.messageId
  mailboxId : d.mailboxId = target.mailboxId
  expires_source : ExpiresNoEarlier d.expiresAt source.expiresAt
  expires_target : ExpiresNoEarlier d.expiresAt target.expiresAt
  never_expires : source.expiresAt = none ∨ target.expiresAt = none → d.expiresAt = none
  deliveredAt : d.deliveredAt = min source.deliveredAt target.deliveredAt

/-- What a merge of `source` into `target` leaves; `deleted` says when a merged delivery has a
    deletion time. -/
structure KeepsVisibleMail (db : Db) (source target : MailboxRow)
    (deleted : DeliveryRow → DeliveryRow → Prop) (db' : Db) : Prop where
  source_gone : ∀ b ∈ db'.mailboxes, b.id ≠ source.id
  visible : ∀ messageId, db'.Shows target.id messageId ↔
    db.Shows source.id messageId ∨ db.Shows target.id messageId
  one_delivery : ∀ messageId, db.Holds source.id messageId ∨ db.Holds target.id messageId →
    (db'.deliveries.filter fun d => d.messageId = messageId && d.mailboxId = target.id).length = 1
  merged : ∀ p ∈ db.duplicateDeliveries source.id target.id, ∃ d ∈ db'.deliveries,
    MergedDelivery p.1 p.2 d ∧ (d.deletedAt.isSome ↔ deleted p.1 p.2)
  others : ∀ id, id ≠ source.id → id ≠ target.id →
    (db'.deliveries.filter fun d => d.mailboxId = id) = db.deliveries.filter fun d => d.mailboxId = id
  target_row : ∃ b, db'.mailbox? target.id = some b ∧
    (b.publicEnabled → source.publicEnabled ∧ target.publicEnabled) ∧
    (source.isHidden ∨ target.isHidden → b.isHidden) ∧
    b.messageCount = (db'.activeIn target.id).length ∧
    b.latestMessageAt = latestOf (db'.activeIn target.id)

theorem mergedDeliveryStatus_active {target source : DeliveryStatus} :
    mergedDeliveryStatus target source = .active ↔ target = .active ∨ source = .active := by
  cases target <;> cases source <;> decide

theorem mergedDeliveryStatus_deleted {target source : DeliveryStatus} :
    mergedDeliveryStatus target source = .deleted ↔ target = .deleted ∧ source = .deleted := by
  cases target <;> cases source <;> decide

theorem mergedExpiration_mem {target source : Option Timestamp} {t : Timestamp}
    (h : t ∈ mergedExpiration target source) :
    ∃ x y, target = some x ∧ source = some y ∧ t = max x y := by
  cases target with
  | none => cases h
  | some x =>
    cases source with
    | none => cases h
    | some y =>
      cases h
      exact ⟨x, y, rfl, rfl, rfl⟩

theorem mergedDeletedAt_isSome {status : DeliveryStatus} {target source : Option Timestamp} :
    (mergedDeletedAt status target source).isSome ↔
      status = .deleted ∧ (source.isSome ∨ target.isSome) := by
  by_cases hstatus : status = .deleted
  · cases target <;> cases source <;> simp [mergedDeletedAt, hstatus]
  · simp [mergedDeletedAt, hstatus]

/-- The delivery that a target's delivery becomes when a copy is collapsed onto it. -/
theorem collapse_merged (s t : DeliveryRow) (generation : Nat) :
    MergedDelivery s t (t.collapse id s generation) := by
  refine ⟨rfl, rfl, ?_, ?_, ?_, Nat.min_comm _ _⟩
  · intro x hx
    obtain ⟨a, b, -, hs, rfl⟩ := mergedExpiration_mem hx
    exact ⟨b, hs, Nat.le_max_right _ _⟩
  · intro x hx
    obtain ⟨a, b, ht, -, rfl⟩ := mergedExpiration_mem hx
    exact ⟨a, ht, Nat.le_max_left _ _⟩
  · intro hnone
    change mergedExpiration t.expiresAt s.expiresAt = none
    rcases hnone with hnone | hnone
    · rw [hnone]
      cases t.expiresAt <;> rfl
    · rw [hnone]
      rfl

/-- A target's delivery after the merge. -/
theorem mergeRow_target {source target : Nat} {d : DeliveryRow} (hbox : d.mailboxId = target) :
    ∃ d', db.mergeRow id source target d = some d' ∧ d'.mailboxId = target ∧
      d'.messageId = d.messageId ∧ (d.status = .active → d'.status = .active) ∧
      ∀ s, db.deliveryOf? d.messageId source = some s →
        d' = d.collapse id s (db.generationOf target) := by
  rw [mergeRow, if_pos hbox]
  cases hcopy : db.deliveryOf? d.messageId source with
  | none => exact ⟨d, rfl, hbox, rfl, fun h => h, by simp⟩
  | some s =>
    refine ⟨_, rfl, hbox, rfl, ?_, ?_⟩
    · intro hactive
      exact mergedDeliveryStatus_active.mpr (.inl hactive)
    · intro s' hs'
      rw [Option.some.inj hs']

/-- Nothing that was visible in one of the two mailboxes is lost, and nothing else appears. -/
theorem shows_merged (hdb : db.Consistent) {source target : Nat} (hne : source ≠ target)
    (messageId : Text) :
    (∃ d ∈ db.deliveries.filterMap (db.mergeRow id source target),
        d.mailboxId = target ∧ d.messageId = messageId ∧ d.status = .active) ↔
      db.Shows source messageId ∨ db.Shows target messageId := by
  constructor
  · rintro ⟨d', hd', hbox, hmsg, hactive⟩
    obtain ⟨d, hd, hrow⟩ := List.mem_filterMap.mp hd'
    obtain ⟨ht, s, hs, rfl⟩ | ⟨hs, -, -, rfl⟩ | ⟨-, -, rfl⟩ := mergeRow_cases hrow
    · rcases mergedDeliveryStatus_active.mp hactive with hstatus | hstatus
      · exact .inr ⟨d, hd, ht, hmsg, hstatus⟩
      · obtain ⟨hmem, hmsg', hbox'⟩ := mem_of_deliveryOf? hs
        exact .inl ⟨s, hmem, hbox', hmsg'.trans hmsg, hstatus⟩
    · exact .inl ⟨d, hd, hs, hmsg, hactive⟩
    · exact .inr ⟨d', hd, hbox, hmsg, hactive⟩
  · rintro (⟨d, hd, hbox, hmsg, hactive⟩ | ⟨d, hd, hbox, hmsg, hactive⟩)
    · cases hcopy : db.deliveryOf? d.messageId target with
      | none =>
        refine ⟨{ d with mailboxId := target, mailboxGeneration := db.generationOf target },
          List.mem_filterMap.mpr ⟨d, hd, ?_⟩, rfl, hmsg, hactive⟩
        rw [mergeRow, hbox, if_neg hne, if_pos rfl, hcopy]
        rfl
      | some t =>
        -- the copy in the target takes the status over
        obtain ⟨ht, hmsg', hbox'⟩ := mem_of_deliveryOf? hcopy
        obtain ⟨t', hrow, hbox'', hmsg'', -, hcollapse⟩ := mergeRow_target hbox'
        have hsource : db.deliveryOf? t.messageId source = some d := by
          rw [hmsg', ← hbox]
          exact deliveryOf?_eq_some hdb hd
        refine ⟨t', List.mem_filterMap.mpr ⟨t, ht, hrow⟩, hbox'',
          hmsg''.trans (hmsg'.trans hmsg), ?_⟩
        rw [hcollapse d hsource]
        exact mergedDeliveryStatus_active.mpr (.inr hactive)
    · obtain ⟨d', hrow, hbox', hmsg', hstatus, -⟩ := mergeRow_target hbox
      exact ⟨d', List.mem_filterMap.mpr ⟨d, hd, hrow⟩, hbox', hmsg'.trans hmsg, hstatus hactive⟩

/-- Exactly one delivery of each message of the two mailboxes. -/
theorem one_merged_delivery (hdb : db.Consistent) {source target : Nat} (hne : source ≠ target)
    (ht : ∃ b ∈ db.mailboxes, b.id = target) {messageId : Text}
    (h : db.Holds source messageId ∨ db.Holds target messageId) :
    ((db.deliveries.filterMap (db.mergeRow id source target)).filter fun d =>
      d.messageId = messageId && d.mailboxId = target).length = 1 := by
  have hkeys : UniqueKey (fun d : DeliveryRow => (d.messageId, d.mailboxId))
      (db.deliveries.filterMap (db.mergeRow id source target)) :=
    (hdb.mergeDeliveries ht).delivery_keys
  have hholds : ∃ d ∈ db.deliveries.filterMap (db.mergeRow id source target),
      d.messageId = messageId ∧ d.mailboxId = target := by
    rw [BatchWriter.mergeDeliveries_holds (Ne.symm hne)]
    rcases h with ⟨d, hd, hbox, hmsg⟩ | ⟨d, hd, hbox, hmsg⟩
    · exact ⟨d, hd, hmsg, .inr hbox⟩
    · exact ⟨d, hd, hmsg, .inl hbox⟩
  obtain ⟨d, hd, hmsg, hbox⟩ := hholds
  have hfilter := hkeys.filter_eq_toList (messageId, target)
  rw [hkeys.find?_eq_some hd (by rw [hmsg, hbox])] at hfilter
  have hsame : (fun d : DeliveryRow => decide (d.messageId = messageId) && decide (d.mailboxId = target)) =
      fun d => decide ((d.messageId, d.mailboxId) = (messageId, target)) := by
    funext d
    simp
  rw [hsame, hfilter]
  rfl

/-- A merged delivery has a deletion time when both copies are deleted and one of them has one. -/
def DeletedWithTime (source target : DeliveryRow) : Prop :=
  (source.status = .deleted ∧ target.status = .deleted) ∧
    (source.deletedAt.isSome ∨ target.deletedAt.isSome)

theorem merged_delivery (hdb : db.Consistent) {source target : Nat}
    {p : DeliveryRow × DeliveryRow} (hp : p ∈ db.duplicateDeliveries source target) :
    ∃ d ∈ db.deliveries.filterMap (db.mergeRow id source target),
      MergedDelivery p.1 p.2 d ∧ (d.deletedAt.isSome ↔ DeletedWithTime p.1 p.2) := by
  obtain ⟨⟨hs, hsource⟩, ht, hmsg, htarget⟩ := mem_duplicateDeliveries.mp hp
  obtain ⟨d, hrow, -, -, -, hcollapse⟩ := mergeRow_target htarget
  have hcopy : db.deliveryOf? p.2.messageId source = some p.1 := by
    rw [hmsg, ← hsource]
    exact deliveryOf?_eq_some hdb hs
  refine ⟨d, List.mem_filterMap.mpr ⟨p.2, ht, hrow⟩, ?_⟩
  rw [hcollapse p.1 hcopy]
  refine ⟨collapse_merged p.1 p.2 _, ?_⟩
  have hdeleted : (mergedDeletedAt (mergedDeliveryStatus p.2.status p.1.status) p.2.deletedAt
      p.1.deletedAt).isSome ↔ _ := mergedDeletedAt_isSome
  rw [mergedDeliveryStatus_deleted, And.comm (a := p.2.status = .deleted)] at hdeleted
  exact hdeleted

theorem others_unmerged {source target id' : Nat} (hs : id' ≠ source) (ht : id' ≠ target) :
    ((db.deliveries.filterMap (db.mergeRow id source target)).filter fun d => d.mailboxId = id') =
      db.deliveries.filter fun d => d.mailboxId = id' := by
  refine filter_filterMap_eq ?_ ?_
  · intro d _ hbox
    rw [mergeRow, of_decide_eq_true hbox, if_neg ht, if_neg hs]
  · intro d _ hbox d' hrow
    have hbox := of_decide_eq_false hbox
    rcases mergeRow_mailbox hrow with ⟨heq, -⟩ | ⟨heq, -, -⟩
    · rw [heq]
      exact decide_eq_false (Ne.symm ht)
    · rw [heq]
      exact decide_eq_false hbox

theorem PromotedByMerge.keepsVisibleMail (hdb : db.Consistent) {source target : MailboxRow}
    {targetRoot : Text} {m : DomainMatch} {db' : Db} (ht : target ∈ db.mailboxes)
    (hne : source.id ≠ target.id) (h : db.PromotedByMerge source target targetRoot m db') :
    db.KeepsVisibleMail source target DeletedWithTime db' := by
  refine ⟨h.source_gone, ?_, ?_, ?_, ?_, _, h.target_row, ?_, ?_, rfl, rfl⟩
  · intro messageId
    rw [← shows_merged hdb hne, Shows, h.deliveries]
  · intro messageId hholds
    rw [h.deliveries]
    exact one_merged_delivery hdb hne ⟨target, ht, rfl⟩ hholds
  · intro p hp
    rw [h.deliveries]
    exact merged_delivery hdb hp
  · intro id' hs ht
    rw [h.deliveries]
    exact others_unmerged hs ht
  · unfold mergedTarget
    split <;> simp [MailboxRow.mergeFlags, MailboxRow.withSummary, MailboxRow.withIdentity,
      and_comm]
  · unfold mergedTarget
    split <;> simp [MailboxRow.mergeFlags, MailboxRow.withSummary, MailboxRow.withIdentity, or_comm]

/-- A mailbox of a sample database. -/
def splitRow (id domainId : Nat) (localPart : String) (notes : Option Text) : MailboxRow :=
  { id := id
    domainId := domainId
    localPartCanonical := localPart.toList
    rcptDomainAscii := "b.example".toList
    addressCanonical := localPart.toList ++ '@' :: "b.example".toList
    addressDisplay := localPart.toList ++ '@' :: "b.example".toList
    firstSeenAt := 3 * id
    lastSeenAt := 3 * id
    latestMessageAt := none
    messageCount := 0
    publicEnabled := true
    isHidden := false
    notes := notes
    bulkDeleteGeneration := 0 }

/-- The mailbox that plus addresses of the catch-all domain had. -/
def splitSource (notes : Option Text) : MailboxRow := splitRow 1 1 "a+x" notes

/-- The managed mailbox they now belong to. -/
def splitTarget : MailboxRow := splitRow 2 2 "a" none

/-- The two mailboxes, with a copy of one message in each. -/
def splitMailbox (status : DeliveryStatus) (deletedAt : Option Timestamp) (notes : Option Text) : Db :=
  let delivery (rowid : Nat) (id : String) : DeliveryRow :=
    { rowid := rowid
      id := id.toList
      messageId := "x".toList
      mailboxId := rowid
      rcptTo := []
      deliveredAt := 3 * rowid
      status := status
      deletedAt := deletedAt
      expiresAt := none
      notes := none
      mailboxGeneration := 0 }
  { Db.empty with
    domains := [⟨1, catchAllRoot, defaultPolicy catchAllRoot⟩,
      ⟨2, "b.example".toList, defaultPolicy "b.example".toList⟩]
    mailboxes := [splitSource notes, splitTarget]
    mailboxSeq := 2
    deliveries := [delivery 1 "d1", delivery 2 "d2"]
    messages := [⟨"x".toList, none, [], [], 0, none, 0,
      ⟨.pending, none, none, none, none, none, none, none, none, false, false, false, 0, none, none,
        none, none, none⟩⟩] }

/-- The match that takes the first mailbox over. -/
def splitMatch : DomainMatch := sampleMatch 2 "b.example" "a" "b.example"

theorem splitMailbox_consistent (status : DeliveryStatus) (deletedAt : Option Timestamp)
    (notes : Option Text) : (splitMailbox status deletedAt notes).Consistent := by
  constructor <;> simp [splitMailbox, splitSource, splitTarget, splitRow, Db.empty, UniqueKey, catchAllRoot]

end Db

namespace DomainService

open Db

variable {db : Db}

/-- A promotion that merges `source` into `target` loses no visible mail. -/
theorem promotion_keeps_visible_mail (hdb : db.Consistent) {source target : MailboxRow}
    {sourceRoot : Text} {m : DomainMatch} (hs : source ∈ db.mailboxes) (ht : target ∈ db.mailboxes)
    (hne : source.id ≠ target.id) (haddr : target.addressCanonical = m.addressCanonical)
    (hroot : db.ownerRoot? source = some sourceRoot)
    (hneeds : mailboxNeedsOwnershipPromotion source sourceRoot m = true)
    (hdom : ∃ d ∈ db.domains, d.id = m.domainId) :
    ∃ result db', promoteMailboxOwnership db source.id m = .ok (result, db') ∧
      db.KeepsVisibleMail source target DeletedWithTime db' := by
  obtain ⟨owner, -, -, htroot⟩ := exists_ownerRoot? hdb ht
  have hfind : db.mailboxAt? m.addressCanonical = some target :=
    hdb.mailbox_addresses.find?_eq_some ht haddr
  obtain ⟨result, db', hok, htables⟩ := promoteByMerge_tables hdb owner.rootDomainAscii ht hne
    hdom haddr
  refine ⟨result, db', ?_, htables.keepsVisibleMail hdb ht hne⟩
  rw [promoteMailboxOwnership_eq hdb, Db.promoteMailboxOwnership_eq hdb hs hroot, if_pos hneeds, hfind]
  dsimp only
  rw [htroot]
  dsimp only
  rw [if_neg (Ne.symm hne)]
  exact hok

theorem promotion_keeps_visible_mail_split :
    ∃ result db', promoteMailboxOwnership (splitMailbox .active none none) (splitSource none).id
        splitMatch = .ok (result, db') ∧
      (splitMailbox .active none none).KeepsVisibleMail (splitSource none) splitTarget
        DeletedWithTime db' :=
  promotion_keeps_visible_mail (splitMailbox_consistent _ _ _) (by simp [splitMailbox])
    (by simp [splitMailbox]) (by decide) (by decide +kernel)
    (show (splitMailbox .active none none).ownerRoot? _ = some catchAllRoot by decide +kernel)
    (by decide +kernel) (by decide +kernel)

/-- Two deleted copies without a deletion time make a delivery without one. -/
theorem undated_deletion_undated :
    (splitMailbox .deleted none none).Consistent ∧
      ∃ result db', promoteMailboxOwnership (splitMailbox .deleted none none) 1 splitMatch =
          .ok (result, db') ∧
        ¬ (splitMailbox .deleted none none).KeepsVisibleMail
          (splitSource none) splitTarget (fun s t => s.status = .deleted ∧ t.status = .deleted) db' := by
  have hcons := splitMailbox_consistent .deleted none none
  obtain ⟨⟨result, db'⟩, hok, hnone⟩ : ∃ r,
      (splitMailbox .deleted none none).promoteMailboxOwnership 1 splitMatch = .ok r ∧
        ∀ d ∈ r.2.deliveries, d.deletedAt = none :=
    ⟨_, rfl, by decide +kernel⟩
  refine ⟨hcons, result, db', (promoteMailboxOwnership_eq hcons _ _).trans hok, ?_⟩
  intro h
  have hpair : ∃ p ∈ (splitMailbox .deleted none none).duplicateDeliveries 1 2,
      p.1.status = .deleted ∧ p.2.status = .deleted := by decide +kernel
  obtain ⟨p, hp, hdeleted⟩ := hpair
  obtain ⟨d, hd, -, hset⟩ := h.merged p hp
  have hsome := hset.mpr hdeleted
  rw [hnone d hd] at hsome
  cases hsome

end DomainService

/-! ## The daemon and the service -/

/-- The columns of a mailbox that a merge writes. -/
def MailboxRow.mergedColumns (b : MailboxRow) :
    Timestamp × Timestamp × Bool × Bool × Option Text × Nat × Option Timestamp :=
  (b.firstSeenAt, b.lastSeenAt, b.publicEnabled, b.isHidden, b.notes, b.messageCount,
    b.latestMessageAt)

namespace Db

variable {db : Db}

/-- The same surviving deliveries, and a target with the same columns. -/
structure SameMerge (daemon service : Db) (target : Nat) : Prop where
  deliveries : daemon.deliveries = service.deliveries
  columns : ∃ b b', daemon.mailbox? target = some b ∧ service.mailbox? target = some b' ∧
    b.mergedColumns = b'.mergedColumns

/-- `merge_mailbox_into` and `refresh_mailbox_summary` leave the rows that
    `promote_mailbox_ownership` leaves; `rows` is the order in which the daemon reads the pairs. -/
def MergesAgree (db : Db) (source target : MailboxRow) (targetRoot : Text) (m : DomainMatch)
    (rows : List (DeliveryRow × DeliveryRow)) : Prop :=
  ∃ stats daemon result service,
    BatchWriter.mergeMailboxInto db target.id source rows = .ok (stats, daemon) ∧
    DomainService.mergeInto db source target targetRoot m = .ok (result, service) ∧
    SameMerge (daemon.refreshSummary target.id) service target.id

/-- No note that the daemon copies has a NUL. -/
structure NotesIntact (db : Db) (source target : MailboxRow) : Prop where
  deliveries : ∀ p ∈ db.duplicateDeliveries source.id target.id, ∀ n ∈ p.2.notes.or p.1.notes,
    '\x00' ∉ n
  mailbox : target.notes = none → ∀ n ∈ source.notes, '\x00' ∉ n

theorem columnText_eq_self {t : Text} : columnText t = t ↔ '\x00' ∉ t := by
  rw [columnText, List.takeWhile_eq_self_iff]
  constructor
  · intro h hmem
    simpa using h _ hmem
  · intro h c hc
    have hne : c ≠ '\x00' := fun heq => h (heq ▸ hc)
    simpa using hne

theorem map_columnText_eq_self {notes : Option Text} :
    notes.map columnText = notes ↔ ∀ n ∈ notes, '\x00' ∉ n := by
  cases notes with
  | none => simp
  | some n => simp [columnText_eq_self]

/-- The daemon's side. -/
theorem mergeMailboxInto_tables (hdb : db.Consistent) {source target : MailboxRow}
    (ht : target ∈ db.mailboxes) (hne : source.id ≠ target.id) :
    ∃ db', db.mergeMailboxInto target.id source = .ok db' ∧
      db'.deliveries = db.deliveries.filterMap (db.mergeRow columnText source.id target.id) ∧
      db'.mailbox? target.id = some (target.mergeMetadata source) := by
  have hdel : ((db.mergeDeliveries columnText source.id target.id).updateMailbox target.id
      fun b => b.mergeMetadata source).deleteMailbox source.id = .ok _ :=
    deleteMailbox_eq (mergeDeliveries_leaves hne)
  refine ⟨_, (if_neg (Ne.symm hne)).trans hdel, rfl, ?_⟩
  rw [mailbox?]
  dsimp only
  rw [find?_filter_ne (Ne.symm hne)]
  have hrow : (db.mergeDeliveries columnText source.id target.id).mailbox? target.id = some target :=
    mailbox?_eq_some hdb ht
  refine (mailbox?_updateMailbox (mergeMetadata_keeps source).id
    (db.mergeDeliveries columnText source.id target.id) target.id).trans ?_
  rw [hrow, Option.map_some]

/-- The deliveries agree when the merged notes do. -/
theorem merged_deliveries_agree_iff (hdb : db.Consistent) {source target : Nat} :
    db.deliveries.filterMap (db.mergeRow columnText source target) =
        db.deliveries.filterMap (db.mergeRow id source target) ↔
      ∀ p ∈ db.duplicateDeliveries source target, ∀ n ∈ p.2.notes.or p.1.notes, '\x00' ∉ n := by
  constructor
  · intro heq p hp
    obtain ⟨⟨hs, hsource⟩, ht, hmsg, htarget⟩ := mem_duplicateDeliveries.mp hp
    have hcopy : db.deliveryOf? p.2.messageId source = some p.1 := by
      rw [hmsg, ← hsource]
      exact deliveryOf?_eq_some hdb hs
    have hrow : db.mergeRow columnText source target p.2 =
        some (p.2.collapse columnText p.1 (db.generationOf target)) := by
      rw [mergeRow, if_pos htarget, hcopy]
    -- the row of the same id that the service leaves
    have hmem := List.mem_filterMap.mpr ⟨p.2, ht, hrow⟩
    rw [heq] at hmem
    obtain ⟨e, he, herow⟩ := List.mem_filterMap.mp hmem
    have het : e = p.2 := hdb.delivery_ids.eq_of_mem he ht (mergeRow_identity herow).2.1.symm
    subst het
    rw [mergeRow, if_pos htarget, hcopy] at herow
    have hnotes : p.2.notes.or p.1.notes = (p.2.notes.or p.1.notes).map columnText := by
      have := congrArg DeliveryRow.notes (Option.some.inj herow)
      simpa [DeliveryRow.collapse] using this
    exact map_columnText_eq_self.mp hnotes.symm
  · intro h
    apply List.filterMap_congr
    intro d hd
    unfold mergeRow
    by_cases ht : d.mailboxId = target
    · rw [if_pos ht, if_pos ht]
      cases hcopy : db.deliveryOf? d.messageId source with
      | none => rfl
      | some s =>
        obtain ⟨hs, hmsg, hsource⟩ := mem_of_deliveryOf? hcopy
        have hpair := h (s, d) (mem_duplicateDeliveries.mpr ⟨⟨hs, hsource⟩, hd, hmsg.symm, ht⟩)
        simp only [DeliveryRow.collapse, map_columnText_eq_self.mpr hpair, Option.map_id, id]
    · rw [if_neg ht, if_neg ht]

section MergesAgree

variable {source target : MailboxRow} (targetRoot : Text) {m : DomainMatch}
  {rows : List (DeliveryRow × DeliveryRow)}

/-- What the two implementations leave of a state. -/
theorem merge_results (hdb : db.Consistent) (hids : ∀ d ∈ db.deliveries, '\x00' ∉ d.id)
    (ht : target ∈ db.mailboxes) (hne : source.id ≠ target.id)
    (haddr : target.addressCanonical = m.addressCanonical)
    (hdom : ∃ d ∈ db.domains, d.id = m.domainId)
    (hrows : rows.Perm (db.duplicateDeliveries source.id target.id)) :
    ∃ stats daemon result service,
      BatchWriter.mergeMailboxInto db target.id source rows = .ok (stats, daemon) ∧
      DomainService.mergeInto db source target targetRoot m = .ok (result, service) ∧
      daemon.deliveries = db.deliveries.filterMap (db.mergeRow columnText source.id target.id) ∧
      (daemon.refreshSummary target.id).mailbox? target.id =
        some ((target.mergeMetadata source).withSummary (daemon.activeIn target.id)) ∧
      db.PromotedByMerge source target targetRoot m service := by
  have hids' (d : DeliveryRow) (hd : d ∈ db.deliveries) : columnText d.id = d.id :=
    columnText_eq_self.mpr (hids d hd)
  obtain ⟨daemon, hdaemon, hdeliveries, hrow⟩ := mergeMailboxInto_tables hdb ht hne
  obtain ⟨result, service, hservice, htables⟩ :=
    promoteByMerge_tables hdb targetRoot ht hne hdom haddr
  rw [← DomainService.mergeInto_eq hdb ht haddr hne] at hservice
  have hmerge := BatchWriter.mergeMailboxInto_eq hdb hids' (Ne.symm hne) ⟨target, ht, rfl⟩ hrows
  rw [hdaemon] at hmerge
  refine ⟨_, daemon, result, service, hmerge, hservice, hdeliveries, ?_, htables⟩
  rw [refreshSummary, mailbox?_updateMailbox (withSummary_keeps _).id, hrow, Option.map_some]

theorem notesIntact_of_mergesAgree (hdb : db.Consistent)
    (hids : ∀ d ∈ db.deliveries, '\x00' ∉ d.id) (ht : target ∈ db.mailboxes)
    (hne : source.id ≠ target.id) (haddr : target.addressCanonical = m.addressCanonical)
    (hdom : ∃ d ∈ db.domains, d.id = m.domainId)
    (hrows : rows.Perm (db.duplicateDeliveries source.id target.id))
    (h : db.MergesAgree source target targetRoot m rows) : db.NotesIntact source target := by
  obtain ⟨stats, daemon, result, service, hd, hs, hsame⟩ := h
  obtain ⟨stats', daemon', result', service', hmerge, hservice, hdeliveries, hrow, htables⟩ :=
    merge_results targetRoot hdb hids ht hne haddr hdom hrows
  obtain ⟨-, rfl⟩ := Prod.mk.inj (Except.ok.inj (hmerge.symm.trans hd))
  obtain ⟨-, rfl⟩ := Prod.mk.inj (Except.ok.inj (hservice.symm.trans hs))
  refine ⟨?_, ?_⟩
  · have heq : daemon'.deliveries = service'.deliveries := hsame.deliveries
    rw [hdeliveries, htables.deliveries] at heq
    exact (merged_deliveries_agree_iff hdb).mp heq
  · intro hnone
    obtain ⟨b, b', hb, hb', hcolumns⟩ := hsame.columns
    rw [hrow] at hb
    rw [htables.target_row] at hb'
    cases hb
    cases hb'
    have hnotes : target.notes.or (source.notes.map columnText) = target.notes.or source.notes := by
      have heq := congrArg (fun c => c.2.2.2.2.1) hcolumns
      simp only [MailboxRow.mergedColumns, MailboxRow.withSummary, MailboxRow.mergeMetadata,
        mergedTarget, MailboxRow.mergeFlags] at heq
      split at heq <;> exact heq
    rw [hnone, Option.none_or, Option.none_or] at hnotes
    exact map_columnText_eq_self.mp hnotes

/-- The daemon and the service agree on a merge exactly when no note is cut short. -/
theorem merges_agree_iff (hdb : db.Consistent) (hids : ∀ d ∈ db.deliveries, '\x00' ∉ d.id)
    (ht : target ∈ db.mailboxes) (hne : source.id ≠ target.id)
    (haddr : target.addressCanonical = m.addressCanonical)
    (hdom : ∃ d ∈ db.domains, d.id = m.domainId)
    (hrows : rows.Perm (db.duplicateDeliveries source.id target.id)) :
    db.MergesAgree source target targetRoot m rows ↔ db.NotesIntact source target := by
  constructor
  · exact notesIntact_of_mergesAgree targetRoot hdb hids ht hne haddr hdom hrows
  · intro hintact
    obtain ⟨stats, daemon, result, service, hmerge, hservice, hdeliveries, hrow, htables⟩ :=
      merge_results targetRoot hdb hids ht hne haddr hdom hrows
    have heq : daemon.deliveries = service.deliveries := by
      rw [hdeliveries, htables.deliveries]
      exact (merged_deliveries_agree_iff hdb).mpr hintact.deliveries
    refine ⟨stats, daemon, result, service, hmerge, hservice, heq, _, _, hrow, htables.target_row, ?_⟩
    have hactive : daemon.activeIn target.id = service.activeIn target.id := by
      rw [activeIn, heq, activeIn]
    have hnotes : target.notes.or (source.notes.map columnText) = target.notes.or source.notes := by
      cases hnone : target.notes with
      | none => rw [map_columnText_eq_self.mpr (hintact.mailbox hnone)]
      | some n => rfl
    have hfirst : min target.firstSeenAt source.firstSeenAt =
        min target.firstSeenAt (min source.firstSeenAt target.firstSeenAt) := by
      rw [min_comm source.firstSeenAt, ← min_assoc, min_self]
    have hlast : max target.lastSeenAt source.lastSeenAt =
        max target.lastSeenAt (max source.lastSeenAt target.lastSeenAt) := by
      rw [max_comm source.lastSeenAt, ← max_assoc, max_self]
    rw [hactive]
    simp only [MailboxRow.mergedColumns, MailboxRow.withSummary, MailboxRow.mergeMetadata,
      mergedTarget, MailboxRow.mergeFlags, hnotes, hfirst, hlast]
    split <;> rfl

end MergesAgree

theorem merges_agree_split :
    (splitMailbox .active none (some "ok".toList)).MergesAgree (splitSource (some "ok".toList))
        splitTarget "b.example".toList splitMatch
        ((splitMailbox .active none (some "ok".toList)).duplicateDeliveries 1 2) :=
  (merges_agree_iff _ (splitMailbox_consistent _ _ _) (by decide +kernel) (by simp [splitMailbox])
    (by decide) (by decide +kernel) (by decide +kernel) (.refl _)).mpr
    ⟨by decide +kernel, by decide +kernel⟩

/-- A note with a NUL, which `PATCH /mailboxes` accepts, loses its end in the daemon's merge. -/
theorem nul_note_cut_short :
    ¬ (splitMailbox .active none (some ['a', '\x00', 'b'])).MergesAgree
        (splitSource (some ['a', '\x00', 'b'])) splitTarget "b.example".toList splitMatch
        ((splitMailbox .active none (some ['a', '\x00', 'b'])).duplicateDeliveries 1 2) := by
  intro h
  have hintact := notesIntact_of_mergesAgree _ (splitMailbox_consistent _ _ _) (by decide +kernel)
    (by simp [splitMailbox]) (by decide) (by decide +kernel) (by decide +kernel) (.refl _) h
  exact hintact.mailbox rfl _ rfl (by decide)

end Db
end RapidInbox

import RapidInbox.Store.Directory

/-!
# The merge, statement by statement

`Db.mergeDeliveries` says what a merge does to each row.  The daemon gets there with a join, an
update for each joined pair, one delete and one bulk move (`batch_writer.cpp:1308-1456`); the
service with a loop that updates one delivery and deletes the other, and a bulk move
(`domains.py:276-415`).  Both are written out here, with the constraint that a move can violate,
and shown to be the row-wise merge.
-/

namespace RapidInbox

open Table

namespace Db

/-- The join of two mailboxes on the message: the source's delivery and the target's. -/
def duplicateDeliveries (db : Db) (source target : Nat) : List (DeliveryRow × DeliveryRow) :=
  (db.deliveries.filter fun s => s.mailboxId = source).flatMap fun s =>
    (db.deliveries.filter fun t => t.messageId = s.messageId && t.mailboxId = target).map
      fun t => (s, t)

/-- `move_deliveries`: `UPDATE message_deliveries SET mailbox_id = …` checks
    `UNIQUE (message_id, mailbox_id)`, and the generation of a missing mailbox is `NULL`. -/
def moveDeliveries (db : Db) (source target : Nat) : Except DbError Db :=
  if db.deliveries.any fun d =>
      d.mailboxId = source && (db.deliveryOf? d.messageId target).isSome then
    .error .uniqueDelivery
  else if (db.mailbox? target).isNone && db.deliveries.any (fun d => d.mailboxId = source) then
    .error .notNull
  else .ok
    { db with
      deliveries := updateWhere (fun d => d.mailboxId = source)
        (fun d => { d with mailboxId := target, mailboxGeneration := db.generationOf target })
        db.deliveries }

/-- The ghost record of a merge that started at `before`. -/
def recordMerge (db before : Db) (read : Text → Text) (source target : Nat) : Db :=
  { db with
    merges := db.merges ++
      [⟨source, target,
        (before.deliveries.filter (before.isStamped read source target)).map DeliveryRow.id⟩] }

end Db

/-! ## The daemon -/

namespace BatchWriter

/-- `DeliveryMergeUpdate`. -/
structure DeliveryMergeUpdate where
  id : Text
  status : DeliveryStatus
  deliveredAt : Timestamp
  expiresAt : Option Timestamp
  deletedAt : Option Timestamp
  notes : Option Text
  deriving DecidableEq, Repr

/-- The loop body over `select_duplicate_deliveries`. -/
def deliveryMergeUpdate (source target : DeliveryRow) : DeliveryMergeUpdate :=
  let status := if target.status.rank < source.status.rank then source.status else target.status
  { id := columnText target.id
    status := status
    deliveredAt := min target.deliveredAt source.deliveredAt
    expiresAt :=
      match target.expiresAt, source.expiresAt with
      | some t, some s => some (max t s)
      | _, _ => none
    deletedAt :=
      if status = .deleted then
        match target.deletedAt, source.deletedAt with
        | some t, some s => some (min t s)
        | some t, none => some t
        | none, s => s
      else none
    notes :=
      match target.notes.map columnText with
      | some n => some n
      | none => source.notes.map columnText }

/-- The row that `update_merged_delivery` writes. -/
def DeliveryMergeUpdate.assign (u : DeliveryMergeUpdate) (generation : Nat) (d : DeliveryRow) :
    DeliveryRow :=
  { d with
    status := u.status
    deliveredAt := u.deliveredAt
    expiresAt := u.expiresAt
    deletedAt := u.deletedAt
    notes := u.notes
    mailboxGeneration := generation }

/-- `update_merged_delivery`. -/
def updateMergedDelivery (generation : Nat) (rows : List DeliveryRow) (u : DeliveryMergeUpdate) :
    List DeliveryRow :=
  updateWhere (fun d => d.id = u.id) (u.assign generation) rows

/-- `delete_duplicate_deliveries`. -/
def deleteDuplicateDeliveries (db : Db) (source target : Nat) : Db :=
  { db with
    deliveries := db.deliveries.filter fun d =>
      !(d.mailboxId = source && (db.deliveryOf? d.messageId target).isSome) }

/-- `MailboxMergeStats`. -/
structure MailboxMergeStats where
  moved : Nat
  deduplicated : Nat
  deriving DecidableEq, Repr

/-- `merge_mailbox_into`, when `select_duplicate_deliveries` returns the pairs in the order
    `rows`. -/
def mergeMailboxInto (db : Db) (target : Nat) (source : MailboxRow)
    (rows : List (DeliveryRow × DeliveryRow)) : Except DbError (MailboxMergeStats × Db) :=
  if target = source.id then .ok (⟨0, 0⟩, db)
  else
    let updates := rows.map fun p => deliveryMergeUpdate p.1 p.2
    let updated : Db :=
      { db with
        deliveries := updates.foldl (updateMergedDelivery (db.generationOf target)) db.deliveries }
    let deduplicated := deleteDuplicateDeliveries updated source.id target
    match deduplicated.moveDeliveries source.id target with
    | .error e => .error e
    | .ok moved =>
      match ((moved.recordMerge db columnText source.id target).updateMailbox target
          fun b => b.mergeMetadata source).deleteMailbox source.id with
      | .error e => .error e
      | .ok db =>
        .ok (⟨deduplicated.deliveries.countP fun d => d.mailboxId = source.id,
          updates.length⟩, db)

end BatchWriter

/-! ## The service -/

namespace DomainService

/-- `_merged_delivery_status`: the first of the three that either copy has. -/
def mergedDeliveryStatus (first second : DeliveryStatus) : DeliveryStatus :=
  ([DeliveryStatus.active, .hidden, .deleted].find? fun s => s = first || s = second).getD first

/-- `deleted_at` of a collapsed delivery: the least of the values there are. -/
def mergedDeletedAt (status : DeliveryStatus) (target source : Option Timestamp) :
    Option Timestamp :=
  if status = .deleted then ([target, source].filterMap id).min? else none

/-- The row that the `UPDATE` of the loop writes: the minimum and the `COALESCE` are taken with the
    row as it is then, the rest comes from the page of duplicates. -/
def collapseOnto (source target : DeliveryRow) (generation : Nat) (d : DeliveryRow) : DeliveryRow :=
  let status := mergedDeliveryStatus target.status source.status
  { d with
    deliveredAt := min d.deliveredAt source.deliveredAt
    status := status
    deletedAt := mergedDeletedAt status target.deletedAt source.deletedAt
    expiresAt := mergedExpiration target.expiresAt source.expiresAt
    notes := d.notes.or source.notes
    mailboxGeneration := generation }

/-- One turn of the loop over the duplicates. -/
def mergeDuplicate (generation : Nat) (rows : List DeliveryRow) (p : DeliveryRow × DeliveryRow) :
    List DeliveryRow :=
  (updateWhere (fun d => d.id = p.2.id) (collapseOnto p.1 p.2 generation) rows).filter
    fun d => d.id ≠ p.1.id

/-- `ORDER BY source.message_id ASC, source.id ASC`. -/
def duplicateOrder (p q : DeliveryRow × DeliveryRow) : Bool :=
  p.1.messageId < q.1.messageId || (p.1.messageId = q.1.messageId && p.1.id ≤ q.1.id)

/-- The update of a promotion target that takes over the match, without its address. -/
def promotedTarget (source : MailboxRow) (m : DomainMatch) (b : MailboxRow) : MailboxRow :=
  { b with
    domainId := m.domainId
    localPartCanonical := m.localPartCanonical
    rcptDomainAscii := m.domainAscii
    addressDisplay := m.addressCanonical
    publicEnabled := b.publicEnabled && source.publicEnabled
    isHidden := b.isHidden || source.isHidden
    notes := b.notes.or source.notes }

/-- The update of the target's identity and flags. -/
def updateTarget (db : Db) (source target : MailboxRow) (targetRoot : Text) (m : DomainMatch) :
    Except DbError Db :=
  if mailboxNeedsOwnershipPromotion target targetRoot m then
    if (db.domain? m.domainId).isNone then .error .foreignKey
    else .ok (db.updateMailbox target.id (promotedTarget source m))
  else .ok (db.updateMailbox target.id fun b => b.mergeFlags source)

/-- The part of `promote_mailbox_ownership` from the selection of the duplicates on. -/
def mergeDeliveriesInto (db : Db) (source target : MailboxRow) :
    Except DbError (PromoteResult × Db) :=
  let duplicates := (db.duplicateDeliveries source.id target.id).mergeSort duplicateOrder
  let merged : Db :=
    { db with
      deliveries := duplicates.foldl (mergeDuplicate (db.generationOf target.id)) db.deliveries }
  match merged.moveDeliveries source.id target.id with
  | .error e => .error e
  | .ok moved =>
    let refreshed := (moved.recordMerge db id source.id target.id).refreshRehomedMailboxSummary
      target.id (min source.firstSeenAt target.firstSeenAt)
        (max source.lastSeenAt target.lastSeenAt)
    match refreshed.deleteMailbox source.id with
    | .error e => .error e
    | .ok db =>
      .ok (⟨target.id, true, merged.deliveries.countP fun d => d.mailboxId = source.id,
        duplicates.length⟩, db)

/-- The branch of `promote_mailbox_ownership` for a target that is another mailbox. -/
def mergeInto (db : Db) (source target : MailboxRow) (targetRoot : Text) (m : DomainMatch) :
    Except DbError (PromoteResult × Db) :=
  match updateTarget db source target targetRoot m with
  | .error e => .error e
  | .ok updated => mergeDeliveriesInto updated source target

/-- `promote_mailbox_ownership`. -/
def promoteMailboxOwnership (db : Db) (sourceMailboxId : Nat) (m : DomainMatch) :
    Except DbError (PromoteResult × Db) :=
  match db.mailbox? sourceMailboxId with
  | none => .ok (⟨0, false, 0, 0⟩, db)
  | some source =>
    match db.ownerRoot? source with
    | none => .ok (⟨0, false, 0, 0⟩, db)
    | some sourceRoot =>
      if !mailboxNeedsOwnershipPromotion source sourceRoot m then
        .ok (⟨source.id, false, 0, 0⟩, db)
      else
        match db.mailboxAt? m.addressCanonical with
        | none => db.promoteInPlace source m
        | some target =>
          match db.ownerRoot? target with
          | none => db.promoteInPlace source m
          | some targetRoot =>
            if target.id = source.id then db.promoteInPlace source m
            else mergeInto db source target targetRoot m

end DomainService

/-! ## Pairs of duplicates -/

namespace Db

variable {db : Db} {source target : Nat}

theorem mem_duplicateDeliveries {p : DeliveryRow × DeliveryRow} :
    p ∈ db.duplicateDeliveries source target ↔
      (p.1 ∈ db.deliveries ∧ p.1.mailboxId = source) ∧
        p.2 ∈ db.deliveries ∧ p.2.messageId = p.1.messageId ∧ p.2.mailboxId = target := by
  obtain ⟨s, t⟩ := p
  simp [duplicateDeliveries]

theorem duplicateDeliveries_nodup (hdb : db.Consistent) :
    (db.duplicateDeliveries source target).Nodup := by
  have hrows : db.deliveries.Nodup := List.Nodup.of_map _ hdb.delivery_ids
  rw [duplicateDeliveries, List.nodup_flatMap]
  constructor
  · intro s _
    refine (hrows.filter _).map ?_
    intro t t' heq
    exact (Prod.mk.inj heq).2
  · refine (hrows.filter _).imp ?_
    intro s s' hne p hp hp'
    obtain ⟨t, -, rfl⟩ := List.mem_map.mp hp
    obtain ⟨t', -, heq⟩ := List.mem_map.mp hp'
    exact hne (Prod.mk.inj heq).1.symm

/-- The pair that a delivery is part of. -/
def duplicateOf (db : Db) (source target : Nat) (d : DeliveryRow) :
    Option (DeliveryRow × DeliveryRow) :=
  if d.mailboxId = target then (db.deliveryOf? d.messageId source).map fun s => (s, d)
  else if d.mailboxId = source then (db.deliveryOf? d.messageId target).map fun t => (d, t)
  else none

theorem duplicateOf_cases {d : DeliveryRow} {p : DeliveryRow × DeliveryRow}
    (h : db.duplicateOf source target d = some p) :
    (d.mailboxId = target ∧ ∃ s, db.deliveryOf? d.messageId source = some s ∧ p = (s, d)) ∨
      (d.mailboxId ≠ target ∧ d.mailboxId = source ∧
        ∃ t, db.deliveryOf? d.messageId target = some t ∧ p = (d, t)) := by
  unfold duplicateOf at h
  split at h
  · rename_i ht
    obtain ⟨s, hs, rfl⟩ := Option.map_eq_some_iff.mp h
    exact .inl ⟨ht, s, hs, rfl⟩
  · rename_i ht
    split at h
    · rename_i hs
      obtain ⟨t, hcopy, rfl⟩ := Option.map_eq_some_iff.mp h
      exact .inr ⟨ht, hs, t, hcopy, rfl⟩
    · cases h

theorem duplicateOf_mem {d : DeliveryRow} (hd : d ∈ db.deliveries)
    {p : DeliveryRow × DeliveryRow} (h : db.duplicateOf source target d = some p) :
    p ∈ db.duplicateDeliveries source target := by
  rw [mem_duplicateDeliveries]
  obtain ⟨ht, s, hs, rfl⟩ | ⟨-, hs, t, ht, rfl⟩ := duplicateOf_cases h
  · obtain ⟨hmem, hmsg, hbox⟩ := mem_of_deliveryOf? hs
    exact ⟨⟨hmem, hbox⟩, hd, hmsg.symm, ht⟩
  · obtain ⟨hmem, hmsg, hbox⟩ := mem_of_deliveryOf? ht
    exact ⟨⟨hd, hs⟩, hmem, hmsg, hbox⟩

/-- A delivery is in no other pair. -/
theorem duplicateOf_eq (hdb : db.Consistent) (hne : source ≠ target) {d : DeliveryRow}
    (hd : d ∈ db.deliveries) {p : DeliveryRow × DeliveryRow}
    (hp : p ∈ db.duplicateDeliveries source target) (hid : d.id = p.1.id ∨ d.id = p.2.id) :
    db.duplicateOf source target d = some p := by
  obtain ⟨⟨hs, hsource⟩, ht, hmsg, htarget⟩ := mem_duplicateDeliveries.mp hp
  obtain ⟨s, t⟩ := p
  dsimp only at hs hsource ht hmsg htarget hid
  rcases hid with hid | hid
  · have hds : d = s := hdb.delivery_ids.eq_of_mem hd hs hid
    subst hds
    have hcopy := deliveryOf?_eq_some hdb ht
    rw [hmsg, htarget] at hcopy
    have hnot : d.mailboxId ≠ target := by
      rw [hsource]
      exact hne
    rw [duplicateOf, if_neg hnot, if_pos hsource, hcopy, Option.map_some]
  · have hdt : d = t := hdb.delivery_ids.eq_of_mem hd ht hid
    subst hdt
    have hcopy := deliveryOf?_eq_some hdb hs
    rw [← hmsg, hsource] at hcopy
    rw [duplicateOf, if_pos htarget, hcopy, Option.map_some]

/-- A loop over the duplicates, in any order, whose turn for a pair is about the two rows of the
    pair. -/
theorem foldl_duplicates (hdb : db.Consistent) (hne : source ≠ target)
    {rows : List (DeliveryRow × DeliveryRow)}
    (hrows : rows.Perm (db.duplicateDeliveries source target))
    {g : DeliveryRow × DeliveryRow → DeliveryRow → Option DeliveryRow}
    (hother : ∀ p d, d.id ≠ p.1.id → d.id ≠ p.2.id → g p d = some d)
    (hid : ∀ p d b, g p d = some b → b.id = d.id) :
    rows.foldl (fun deliveries p => deliveries.filterMap (g p)) db.deliveries =
      db.deliveries.filterMap fun d =>
        match db.duplicateOf source target d with
        | some p => g p d
        | none => some d := by
  rw [foldl_filterMap]
  apply List.filterMap_congr
  intro d hd
  -- a turn for another pair leaves a row with the id of `d` alone
  have hpass (q : DeliveryRow × DeliveryRow) (hq : q ∈ rows)
      (hnot : db.duplicateOf source target d ≠ some q) (b : DeliveryRow) (hb : b.id = d.id) :
      g q b = some b := by
    have huntouched (hid : d.id = q.1.id ∨ d.id = q.2.id) : False :=
      hnot (duplicateOf_eq hdb hne hd (hrows.mem_iff.mp hq) hid)
    refine hother q b ?_ ?_
    · intro h
      exact huntouched (.inl (hb.symm.trans h))
    · intro h
      exact huntouched (.inr (hb.symm.trans h))
  cases hpair : db.duplicateOf source target d with
  | none =>
    refine foldlM_untouched ?_
    intro q hq
    exact hpass q hq (by rw [hpair]; exact nofun) d rfl
  | some p =>
    have hp : p ∈ rows := hrows.mem_iff.mpr (duplicateOf_mem hd hpair)
    refine foldlM_touched_once (hrows.nodup_iff.mpr (duplicateDeliveries_nodup hdb)) hp ?_ ?_
    · intro q hq hqp
      exact hpass q hq (fun h => hqp (Option.some.inj (h.symm.trans hpair))) d rfl
    · intro b hb q hq hqp
      exact hpass q hq (fun h => hqp (Option.some.inj (h.symm.trans hpair))) b (hid p d b hb)

/-- A row of `message_deliveries` once the duplicates are collapsed and before the move. -/
def collapseRow (db : Db) (read : Text → Text) (source target : Nat) (d : DeliveryRow) :
    Option DeliveryRow :=
  if d.mailboxId = target then
    match db.deliveryOf? d.messageId source with
    | some copy => some (d.collapse read copy (db.generationOf target))
    | none => some d
  else if d.mailboxId = source && (db.deliveryOf? d.messageId target).isSome then none
  else some d

theorem collapseRow_identity {read : Text → Text} {d d' : DeliveryRow}
    (h : db.collapseRow read source target d = some d') :
    d'.messageId = d.messageId ∧ d'.mailboxId = d.mailboxId := by
  unfold collapseRow at h
  split at h
  · split at h
    · cases h
      exact ⟨rfl, rfl⟩
    · cases h
      exact ⟨rfl, rfl⟩
  · split at h
    · cases h
    · cases h
      exact ⟨rfl, rfl⟩

/-- A source's row that is left has no copy in the target. -/
theorem collapseRow_source {read : Text → Text} {d d' : DeliveryRow} (hne : source ≠ target)
    (h : db.collapseRow read source target d = some d') (hbox : d'.mailboxId = source) :
    db.deliveryOf? d'.messageId target = none := by
  obtain ⟨hmsg, hmail⟩ := collapseRow_identity h
  rw [hmail] at hbox
  rw [collapseRow, hbox, if_neg hne] at h
  rw [hmsg]
  cases hcopy : db.deliveryOf? d.messageId target with
  | none => rfl
  | some t => simp [hcopy] at h

/-- The merge of a row is the collapse and then the move. -/
theorem collapseRow_move (read : Text → Text) (hne : source ≠ target) (d : DeliveryRow) :
    (db.collapseRow read source target d).bind (fun d =>
        some (if d.mailboxId = source then
          { d with mailboxId := target, mailboxGeneration := db.generationOf target }
        else d)) =
      db.mergeRow read source target d := by
  unfold collapseRow mergeRow
  by_cases ht : d.mailboxId = target
  · have hs : d.mailboxId ≠ source := by
      rw [ht]
      exact hne.symm
    rw [if_pos ht, if_pos ht]
    cases db.deliveryOf? d.messageId source with
    | none => simp [hs]
    | some copy => simp [DeliveryRow.collapse, hs]
  · rw [if_neg ht, if_neg ht]
    by_cases hs : d.mailboxId = source
    · cases db.deliveryOf? d.messageId target with
      | none => simp [hs]
      | some t => simp [hs]
    · simp [hs]

/-- After the collapse the move meets no conflict, and the two make the row-wise merge. -/
theorem moveDeliveries_collapsed {read : Text → Text} {collapsed : Db} (hne : source ≠ target)
    (hmail : collapsed.mailboxes = db.mailboxes) (ht : (db.mailbox? target).isSome)
    (hdel : collapsed.deliveries = db.deliveries.filterMap (db.collapseRow read source target)) :
    collapsed.moveDeliveries source target =
      .ok { collapsed with
        deliveries := db.deliveries.filterMap (db.mergeRow read source target) } := by
  have hconflict : (collapsed.deliveries.any fun d =>
      d.mailboxId = source && (collapsed.deliveryOf? d.messageId target).isSome) = false := by
    rw [List.any_eq_false]
    intro d' hd'
    rw [hdel] at hd'
    obtain ⟨d, hd, hrow⟩ := List.mem_filterMap.mp hd'
    simp only [Bool.and_eq_true, decide_eq_true_iff, Option.isSome_iff_exists, not_and, not_exists]
    intro hbox t ht
    obtain ⟨hmem, hmsg, htarget⟩ := mem_of_deliveryOf? ht
    rw [hdel] at hmem
    obtain ⟨e, he, hrow'⟩ := List.mem_filterMap.mp hmem
    obtain ⟨hmsg', hmail'⟩ := collapseRow_identity hrow'
    have hnone := collapseRow_source hne hrow hbox
    exact deliveryOf?_eq_none.mp hnone e he (hmsg'.symm.trans hmsg) (hmail'.symm.trans htarget)
  have hbox : collapsed.mailbox? target = db.mailbox? target := by rw [mailbox?, hmail, mailbox?]
  have hgen : collapsed.generationOf target = db.generationOf target := by
    rw [generationOf, hbox, generationOf]
  have hsome : ¬ ((collapsed.mailbox? target).isNone &&
      collapsed.deliveries.any (fun d => d.mailboxId = source)) = true := by
    obtain ⟨b, hb⟩ := Option.isSome_iff_exists.mp ht
    simp [hbox, hb]
  rw [moveDeliveries, hconflict, if_neg Bool.false_ne_true, if_neg hsome, hgen, hdel, updateWhere_eq_filterMap,
    List.filterMap_filterMap]
  congr 2
  apply List.filterMap_congr
  intro d _
  rw [← collapseRow_move read hne d]
  simp

end Db

/-! ## The loops -/

namespace DomainService

variable {db : Db} {source target : Nat}

theorem mergedDeliveryStatus_eq (target source : DeliveryStatus) :
    mergedDeliveryStatus target source = RapidInbox.mergedDeliveryStatus target source := by
  cases target <;> cases source <;> decide

theorem mergedDeletedAt_eq (status : DeliveryStatus) (target source : Option Timestamp) :
    mergedDeletedAt status target source = RapidInbox.mergedDeletedAt status target source := by
  unfold mergedDeletedAt RapidInbox.mergedDeletedAt
  split
  · cases target <;> cases source <;> rfl
  · rfl

theorem collapseOnto_self (s t : DeliveryRow) (generation : Nat) :
    collapseOnto s t generation t = t.collapse id s generation := by
  simp [collapseOnto, DeliveryRow.collapse, mergedDeliveryStatus_eq, mergedDeletedAt_eq]

/-- A turn of the loop, row by row. -/
def mergeDuplicateRow (generation : Nat) (p : DeliveryRow × DeliveryRow) (d : DeliveryRow) :
    Option DeliveryRow :=
  if d.id = p.1.id then none
  else some (if d.id = p.2.id then collapseOnto p.1 p.2 generation d else d)

theorem mergeDuplicate_eq (generation : Nat) (rows : List DeliveryRow)
    (p : DeliveryRow × DeliveryRow) :
    mergeDuplicate generation rows p = rows.filterMap (mergeDuplicateRow generation p) := by
  rw [mergeDuplicate, updateWhere_eq_filterMap, filter_eq_filterMap, List.filterMap_filterMap]
  apply List.filterMap_congr
  intro d _
  have hid : (if d.id = p.2.id then collapseOnto p.1 p.2 generation d else d).id = d.id := by
    split
    · rfl
    · rfl
  by_cases hs : d.id = p.1.id
  · rw [hs] at hid
    simp [mergeDuplicateRow, hid, hs]
  · simp [mergeDuplicateRow, hid, hs]

/-- The loop over the duplicates collapses them. -/
theorem mergeDuplicates_eq (hdb : db.Consistent) (hne : source ≠ target)
    {rows : List (DeliveryRow × DeliveryRow)}
    (hrows : rows.Perm (db.duplicateDeliveries source target)) :
    rows.foldl (mergeDuplicate (db.generationOf target)) db.deliveries =
      db.deliveries.filterMap (db.collapseRow id source target) := by
  have hturn : mergeDuplicate (db.generationOf target) = fun deliveries p =>
      deliveries.filterMap (mergeDuplicateRow (db.generationOf target) p) := by
    funext deliveries p
    exact mergeDuplicate_eq _ _ _
  rw [hturn, Db.foldl_duplicates hdb hne hrows]
  · apply List.filterMap_congr
    intro d hd
    by_cases ht : d.mailboxId = target
    · rw [Db.duplicateOf, Db.collapseRow, if_pos ht, if_pos ht]
      cases hcopy : db.deliveryOf? d.messageId source with
      | none => rfl
      | some s =>
        obtain ⟨hs, -, hbox⟩ := Db.mem_of_deliveryOf? hcopy
        have hid : d.id ≠ s.id := by
          intro heq
          rw [hdb.delivery_ids.eq_of_mem hd hs heq] at ht
          exact hne (hbox.symm.trans ht)
        simp [mergeDuplicateRow, hid, collapseOnto_self]
    · rw [Db.duplicateOf, Db.collapseRow, if_neg ht, if_neg ht]
      by_cases hs : d.mailboxId = source
      · cases hcopy : db.deliveryOf? d.messageId target with
        | none => simp [hs]
        | some t => simp [hs, mergeDuplicateRow]
      · simp [hs]
  · intro p d hs ht
    rw [mergeDuplicateRow, if_neg hs, if_neg ht]
  · intro p d b hb
    unfold mergeDuplicateRow at hb
    split at hb
    · cases hb
    · cases hb
      split
      · rfl
      · rfl

end DomainService

namespace BatchWriter

variable {db : Db} {source target : Nat}

theorem assign_deliveryMergeUpdate (s t : DeliveryRow) (generation : Nat) :
    (deliveryMergeUpdate s t).assign generation t = t.collapse columnText s generation := by
  have hnotes : (deliveryMergeUpdate s t).notes = (t.notes.or s.notes).map columnText := by
    unfold deliveryMergeUpdate
    cases t.notes <;> rfl
  rw [DeliveryMergeUpdate.assign, hnotes]
  rfl

/-- A row of `message_deliveries` after the updates. -/
def updatedRow (db : Db) (source target : Nat) (d : DeliveryRow) : DeliveryRow :=
  if d.mailboxId = target then
    match db.deliveryOf? d.messageId source with
    | some s => d.collapse columnText s (db.generationOf target)
    | none => d
  else d

theorem updatedRow_identity (d : DeliveryRow) :
    (updatedRow db source target d).messageId = d.messageId ∧
      (updatedRow db source target d).mailboxId = d.mailboxId := by
  unfold updatedRow
  split
  · split
    · exact ⟨rfl, rfl⟩
    · exact ⟨rfl, rfl⟩
  · exact ⟨rfl, rfl⟩

/-- The updates of the duplicates, for deliveries whose ids have no NUL. -/
theorem updateMergedDeliveries_eq (hdb : db.Consistent) (hne : source ≠ target)
    (hids : ∀ d ∈ db.deliveries, columnText d.id = d.id)
    {rows : List (DeliveryRow × DeliveryRow)}
    (hrows : rows.Perm (db.duplicateDeliveries source target)) :
    (rows.map fun p => deliveryMergeUpdate p.1 p.2).foldl
        (updateMergedDelivery (db.generationOf target)) db.deliveries =
      db.deliveries.map (updatedRow db source target) := by
  -- the statement of a pair of rows of the table finds the target's row
  let g (p : DeliveryRow × DeliveryRow) (d : DeliveryRow) : Option DeliveryRow :=
    some (if d.id = p.2.id then (deliveryMergeUpdate p.1 p.2).assign (db.generationOf target) d
      else d)
  have hturn : ∀ p ∈ rows, ∀ deliveries, updateMergedDelivery (db.generationOf target) deliveries
      (deliveryMergeUpdate p.1 p.2) = deliveries.filterMap (g p) := by
    intro p hp deliveries
    have hid : (deliveryMergeUpdate p.1 p.2).id = p.2.id :=
      hids p.2 (Db.mem_duplicateDeliveries.mp (hrows.mem_iff.mp hp)).2.1
    rw [updateMergedDelivery, updateWhere_eq_filterMap, hid]
    simp [g]
  rw [List.foldl_map]
  have hfold : ∀ (steps : List (DeliveryRow × DeliveryRow)), (∀ p ∈ steps, p ∈ rows) →
      ∀ deliveries, steps.foldl (fun deliveries p => updateMergedDelivery (db.generationOf target)
        deliveries (deliveryMergeUpdate p.1 p.2)) deliveries =
      steps.foldl (fun deliveries p => deliveries.filterMap (g p)) deliveries := by
    intro steps
    induction steps with
    | nil => exact fun _ _ => rfl
    | cons p steps ih =>
      intro hmem deliveries
      rw [List.foldl_cons, List.foldl_cons, hturn p (hmem p List.mem_cons_self),
        ih fun q hq => hmem q (List.mem_cons_of_mem _ hq)]
  rw [hfold rows (fun _ h => h), Db.foldl_duplicates hdb hne hrows, ← List.filterMap_eq_map]
  · apply List.filterMap_congr
    intro d hd
    rw [Function.comp_apply, updatedRow]
    by_cases ht : d.mailboxId = target
    · rw [Db.duplicateOf, if_pos ht, if_pos ht]
      cases db.deliveryOf? d.messageId source with
      | none => rfl
      | some s => simp [g, assign_deliveryMergeUpdate]
    · rw [Db.duplicateOf, if_neg ht, if_neg ht]
      by_cases hs : d.mailboxId = source
      · cases hcopy : db.deliveryOf? d.messageId target with
        | none => simp [hs]
        | some t =>
          obtain ⟨htmem, -, hbox⟩ := Db.mem_of_deliveryOf? hcopy
          have hid : d.id ≠ t.id := by
            intro heq
            exact ht (by rw [hdb.delivery_ids.eq_of_mem hd htmem heq, hbox])
          simp [hs, g, hid]
      · simp [hs]
  · intro p d _ ht
    simp [g, ht]
  · intro p d b hb
    cases hb
    split
    · rfl
    · rfl

end BatchWriter

/-! ## Both are the row-wise merge -/

namespace Db

variable {db : Db} {source target : Nat}

/-- The source's deliveries that are in a pair. -/
theorem duplicateDeliveries_fst (hdb : db.Consistent) (hne : source ≠ target) :
    ((db.duplicateDeliveries source target).map Prod.fst).Perm
      (db.deliveries.filter fun d =>
        d.mailboxId = source && (db.deliveryOf? d.messageId target).isSome) := by
  have hrows : db.deliveries.Nodup := List.Nodup.of_map _ hdb.delivery_ids
  refine (List.perm_ext_iff_of_nodup ?_ (hrows.filter _)).mpr ?_
  · refine (duplicateDeliveries_nodup hdb).map_on ?_
    intro p hp q hq heq
    have hmem := (mem_duplicateDeliveries.mp hp).1.1
    have h1 := duplicateOf_eq hdb hne hmem hp (.inl rfl)
    have h2 := duplicateOf_eq hdb hne hmem hq (.inl (by rw [heq]))
    exact Option.some.inj (h1.symm.trans h2)
  · intro s
    simp only [List.mem_map, List.mem_filter, Bool.and_eq_true, decide_eq_true_iff,
      Option.isSome_iff_exists]
    constructor
    · rintro ⟨p, hp, rfl⟩
      obtain ⟨⟨hs, hsource⟩, ht, hmsg, htarget⟩ := mem_duplicateDeliveries.mp hp
      have hcopy := deliveryOf?_eq_some hdb ht
      rw [hmsg, htarget] at hcopy
      exact ⟨hs, hsource, p.2, hcopy⟩
    · rintro ⟨hs, hsource, t, hcopy⟩
      obtain ⟨ht, hmsg, htarget⟩ := mem_of_deliveryOf? hcopy
      exact ⟨(s, t), mem_duplicateDeliveries.mpr ⟨⟨hs, hsource⟩, ht, hmsg, htarget⟩, rfl⟩

/-- The target's deliveries that are in a pair. -/
theorem duplicateDeliveries_snd (hdb : db.Consistent) (hne : source ≠ target) :
    ((db.duplicateDeliveries source target).map Prod.snd).Perm
      (db.deliveries.filter fun d =>
        d.mailboxId = target && (db.deliveryOf? d.messageId source).isSome) := by
  have hrows : db.deliveries.Nodup := List.Nodup.of_map _ hdb.delivery_ids
  refine (List.perm_ext_iff_of_nodup ?_ (hrows.filter _)).mpr ?_
  · refine (duplicateDeliveries_nodup hdb).map_on ?_
    intro p hp q hq heq
    have hmem := (mem_duplicateDeliveries.mp hp).2.1
    have h1 := duplicateOf_eq hdb hne hmem hp (.inr rfl)
    have h2 := duplicateOf_eq hdb hne hmem hq (.inr (by rw [heq]))
    exact Option.some.inj (h1.symm.trans h2)
  · intro t
    simp only [List.mem_map, List.mem_filter, Bool.and_eq_true, decide_eq_true_iff,
      Option.isSome_iff_exists]
    constructor
    · rintro ⟨p, hp, rfl⟩
      obtain ⟨⟨hs, hsource⟩, ht, hmsg, htarget⟩ := mem_duplicateDeliveries.mp hp
      have hcopy := deliveryOf?_eq_some hdb hs
      rw [← hmsg, hsource] at hcopy
      exact ⟨ht, htarget, p.1, hcopy⟩
    · rintro ⟨ht, htarget, s, hcopy⟩
      obtain ⟨hs, hmsg, hsource⟩ := mem_of_deliveryOf? hcopy
      exact ⟨(s, t), mem_duplicateDeliveries.mpr ⟨⟨hs, hsource⟩, ht, hmsg.symm, htarget⟩, rfl⟩

/-- `deduplicated`, counted in the target. -/
theorem length_duplicateDeliveries (hdb : db.Consistent) (hne : source ≠ target) :
    (db.duplicateDeliveries source target).length = (db.collapsedOnto source target).length := by
  rw [collapsedOnto, List.length_map, ← (duplicateDeliveries_snd hdb hne).length_eq,
    List.length_map]

/-- `moved`: the deliveries of the source that the collapse leaves. -/
theorem countP_collapsed (hdb : db.Consistent) (hne : source ≠ target) (read : Text → Text) :
    ((db.deliveries.filterMap (db.collapseRow read source target)).countP
        fun d => d.mailboxId = source) =
      (db.deliveries.countP fun d => d.mailboxId = source) -
        (db.duplicateDeliveries source target).length := by
  have hleft : ((db.deliveries.filterMap (db.collapseRow read source target)).countP
      fun d => d.mailboxId = source) = db.deliveries.countP fun d =>
        decide (d.mailboxId = source) && !(db.deliveryOf? d.messageId target).isSome := by
    rw [List.countP_filterMap]
    apply List.countP_congr
    intro d _
    unfold collapseRow
    by_cases hs : d.mailboxId = source
    · rw [if_neg (hs.trans_ne hne)]
      cases db.deliveryOf? d.messageId target with
      | none => simp [hs]
      | some t => simp [hs]
    · by_cases ht : d.mailboxId = target
      · rw [if_pos ht]
        cases db.deliveryOf? d.messageId source with
        | none => simp [hs]
        | some s => simp [hs, DeliveryRow.collapse]
      · simp [hs, ht]
  have hpairs : (db.duplicateDeliveries source target).length = db.deliveries.countP fun d =>
      decide (d.mailboxId = source) && (db.deliveryOf? d.messageId target).isSome := by
    rw [← List.length_map Prod.fst, (duplicateDeliveries_fst hdb hne).length_eq,
      List.countP_eq_length_filter]
  have hsplit := List.countP_eq_countP_filter_add db.deliveries (fun d => d.mailboxId = source)
    fun d => (db.deliveryOf? d.messageId target).isSome
  rw [List.countP_filter, List.countP_filter] at hsplit
  rw [hleft, hpairs, hsplit]
  simp

end Db

namespace DomainService

open Db

variable {db : Db} {source target : MailboxRow} {targetRoot : Text} {m : DomainMatch}

/-- The two updates of the target's row in the row-wise model are the one statement, since the
    target has the address of the match. -/
theorem updateTarget_eq (hdb : db.Consistent) (ht : target ∈ db.mailboxes)
    (haddr : target.addressCanonical = m.addressCanonical) :
    updateTarget db source target targetRoot m =
      (db.promoteTarget target targetRoot m).map fun promoted =>
        promoted.updateMailbox target.id fun b => b.mergeFlags source := by
  unfold updateTarget promoteTarget
  by_cases hneeds : mailboxNeedsOwnershipPromotion target targetRoot m = true
  · rw [if_pos hneeds, if_pos hneeds]
    have hfree : (db.mailboxes.any fun b =>
        b.addressCanonical = m.addressCanonical && b.id ≠ target.id) = false := by
      rw [List.any_eq_false]
      intro b hb hcond
      rw [Bool.and_eq_true, decide_eq_true_iff, decide_eq_true_iff] at hcond
      exact hcond.2 (by rw [hdb.mailbox_addresses.eq_of_mem hb ht (hcond.1.trans haddr.symm)])
    simp only [updateMailboxIdentity, hfree, Bool.false_eq_true, if_false]
    split
    · rfl
    · simp only [Except.map, updateMailbox, updateWhere, List.map_map]
      congr 2
      apply List.map_congr_left
      intro b hb
      by_cases hid : b.id = target.id
      · have hbt := hdb.mailbox_ids.eq_of_mem hb ht hid
        subst hbt
        simp [promotedTarget, MailboxRow.withIdentity, MailboxRow.mergeFlags, haddr]
      · simp [hid]
  · rw [if_neg hneeds, if_neg hneeds]
    rfl

/-- The statements from the selection of the duplicates on. -/
theorem mergeDeliveriesInto_eq (hdb : db.Consistent) (hne : source.id ≠ target.id)
    (ht : ∃ b ∈ db.mailboxes, b.id = target.id) :
    mergeDeliveriesInto db source target =
      (((db.mergeDeliveries id source.id target.id).refreshRehomedMailboxSummary target.id
          (min source.firstSeenAt target.firstSeenAt)
          (max source.lastSeenAt target.lastSeenAt)).deleteMailbox source.id).map fun db' =>
        (⟨target.id, true,
          (db.deliveries.countP fun d => d.mailboxId = source.id) -
            (db.collapsedOnto source.id target.id).length,
          (db.collapsedOnto source.id target.id).length⟩, db') := by
  have hperm := List.mergeSort_perm (db.duplicateDeliveries source.id target.id) duplicateOrder
  have hsome : (db.mailbox? target.id).isSome := by
    obtain ⟨b, hb, hid⟩ := ht
    rw [mailbox?, hdb.mailbox_ids.find?_eq_some hb hid]
    rfl
  have hmove : moveDeliveries { db with
      deliveries := db.deliveries.filterMap (db.collapseRow id source.id target.id) } source.id
        target.id = .ok { db with
      deliveries := db.deliveries.filterMap (db.mergeRow id source.id target.id) } :=
    moveDeliveries_collapsed hne rfl hsome rfl
  unfold mergeDeliveriesInto
  dsimp only
  rw [mergeDuplicates_eq hdb hne hperm, hmove, countP_collapsed hdb hne, hperm.length_eq,
    length_duplicateDeliveries hdb hne]
  dsimp only
  have hmerged : recordMerge { db with
      deliveries := db.deliveries.filterMap (db.mergeRow id source.id target.id) } db id source.id
        target.id = db.mergeDeliveries id source.id target.id := rfl
  rw [hmerged]
  cases ((db.mergeDeliveries id source.id target.id).refreshRehomedMailboxSummary target.id
    (min source.firstSeenAt target.firstSeenAt)
    (max source.lastSeenAt target.lastSeenAt)).deleteMailbox source.id with
  | error e => rfl
  | ok db' => rfl

theorem promoteTarget_ok {promoted : Db} (hdb : db.Consistent) (ht : target ∈ db.mailboxes)
    (h : db.promoteTarget target targetRoot m = .ok promoted) :
    promoted.Consistent ∧ (∃ b ∈ promoted.mailboxes, b.id = target.id) ∧
      promoted.deliveries = db.deliveries := by
  unfold promoteTarget at h
  split at h
  · have hcons := hdb.setIdentity h
    obtain ⟨-, -, rfl⟩ := updateMailboxIdentity_ok h
    refine ⟨hcons, ?_, rfl⟩
    rw [← List.mem_map]
    have hids := map_updateWhere (p := fun b : MailboxRow => b.id = target.id)
      (f := fun b => b.withIdentity m) (g := MailboxRow.id) (fun _ => rfl) db.mailboxes
    simp only [updateMailbox]
    rw [hids]
    exact List.mem_map_of_mem ht
  · cases h
    exact ⟨hdb, ⟨target, ht, rfl⟩, rfl⟩

/-- The branch that merges, statement by statement and row by row. -/
theorem mergeInto_eq (hdb : db.Consistent) (ht : target ∈ db.mailboxes)
    (haddr : target.addressCanonical = m.addressCanonical) (hne : source.id ≠ target.id) :
    mergeInto db source target targetRoot m = db.promoteByMerge source target targetRoot m := by
  unfold mergeInto promoteByMerge
  rw [updateTarget_eq hdb ht haddr]
  cases hpromoted : db.promoteTarget target targetRoot m with
  | error e => rfl
  | ok promoted =>
    obtain ⟨hcons, hexists, hdel⟩ := promoteTarget_ok hdb ht hpromoted
    have hflagged : (promoted.updateMailbox target.id fun b => b.mergeFlags source).Consistent :=
      hcons.setColumns (mergeFlags_keeps source)
    have hhas : ∃ b ∈ (promoted.updateMailbox target.id fun b => b.mergeFlags source).mailboxes,
        b.id = target.id := by
      rw [← List.mem_map] at hexists ⊢
      simp only [updateMailbox]
      rw [map_updateWhere (mergeFlags_keeps source).id]
      exact hexists
    have hcollapsed : (promoted.updateMailbox target.id fun b => b.mergeFlags source).collapsedOnto
        source.id target.id = db.collapsedOnto source.id target.id := by
      simp only [collapsedOnto, deliveryOf?, updateMailbox, hdel]
    have hrows : (promoted.updateMailbox target.id fun b => b.mergeFlags source).deliveries =
        db.deliveries := hdel
    dsimp only [Except.map]
    rw [mergeDeliveriesInto_eq hflagged hne hhas, hcollapsed, hrows]
    cases (((promoted.updateMailbox target.id fun b => b.mergeFlags source).mergeDeliveries id
      source.id target.id).refreshRehomedMailboxSummary target.id
      (min source.firstSeenAt target.firstSeenAt)
      (max source.lastSeenAt target.lastSeenAt)).deleteMailbox source.id with
    | error e => rfl
    | ok db' => rfl

/-- `promote_mailbox_ownership`, statement by statement and row by row. -/
theorem promoteMailboxOwnership_eq (hdb : db.Consistent) (sourceMailboxId : Nat) (m : DomainMatch) :
    promoteMailboxOwnership db sourceMailboxId m = db.promoteMailboxOwnership sourceMailboxId m := by
  unfold promoteMailboxOwnership Db.promoteMailboxOwnership
  cases db.mailbox? sourceMailboxId with
  | none => rfl
  | some source =>
    dsimp only
    cases db.ownerRoot? source with
    | none => rfl
    | some sourceRoot =>
      dsimp only
      split
      · rfl
      · cases htarget : db.mailboxAt? m.addressCanonical with
        | none => rfl
        | some target =>
          obtain ⟨ht, haddr⟩ := find?_key htarget
          dsimp only
          cases db.ownerRoot? target with
          | none => rfl
          | some targetRoot =>
            dsimp only
            split
            · rfl
            · rename_i hne
              exact mergeInto_eq hdb ht haddr (Ne.symm hne)

end DomainService

namespace BatchWriter

open Db

variable {db : Db}

/-- The delete finds the pairs of the join: the updates keep every row in its place. -/
theorem deleteDuplicates_updated {source target : Nat} (hne : source ≠ target) :
    deleteDuplicateDeliveries { db with deliveries := db.deliveries.map (updatedRow db source target) }
        source target =
      { db with deliveries := db.deliveries.filterMap (db.collapseRow columnText source target) } := by
  have hcopy (messageId : Text) : (deliveryOf? { db with
      deliveries := db.deliveries.map (updatedRow db source target) } messageId target).isSome =
        (db.deliveryOf? messageId target).isSome := by
    rw [Bool.eq_iff_iff]
    simp only [deliveryOf?, List.find?_isSome, List.mem_map, Bool.and_eq_true, decide_eq_true_iff]
    constructor
    · rintro ⟨_, ⟨d, hd, rfl⟩, hkey⟩
      rw [(updatedRow_identity d).1, (updatedRow_identity d).2] at hkey
      exact ⟨d, hd, hkey⟩
    · rintro ⟨d, hd, hkey⟩
      refine ⟨_, ⟨d, hd, rfl⟩, ?_⟩
      rw [(updatedRow_identity d).1, (updatedRow_identity d).2]
      exact hkey
  simp only [deleteDuplicateDeliveries, hcopy]
  rw [filter_eq_filterMap, ← List.filterMap_eq_map, List.filterMap_filterMap]
  congr 1
  apply List.filterMap_congr
  intro d _
  rw [Function.comp_apply, Option.bind_some, (updatedRow_identity d).1, (updatedRow_identity d).2,
    updatedRow, collapseRow]
  by_cases ht : d.mailboxId = target
  · have hs : d.mailboxId ≠ source := by
      rw [ht]
      exact hne.symm
    rw [if_pos ht, if_pos ht]
    cases db.deliveryOf? d.messageId source with
    | none => simp [hs]
    | some s => simp [hs]
  · rw [if_neg ht, if_neg ht]
    by_cases hs : (decide (d.mailboxId = source) && (db.deliveryOf? d.messageId target).isSome) = true
    · simp only [hs, Bool.not_true, Bool.false_eq_true, if_false, if_true]
    · simp only [hs, Bool.not_false, if_true, Bool.false_eq_true, if_false]

/-- `merge_mailbox_into`, statement by statement and row by row. -/
theorem mergeMailboxInto_eq (hdb : db.Consistent)
    (hids : ∀ d ∈ db.deliveries, columnText d.id = d.id) {source : MailboxRow} {target : Nat}
    (hne : target ≠ source.id) (ht : ∃ b ∈ db.mailboxes, b.id = target)
    {rows : List (DeliveryRow × DeliveryRow)}
    (hrows : rows.Perm (db.duplicateDeliveries source.id target)) :
    mergeMailboxInto db target source rows =
      (db.mergeMailboxInto target source).map fun db' =>
        (⟨(db.deliveries.countP fun d => d.mailboxId = source.id) -
            (db.collapsedOnto source.id target).length,
          (db.collapsedOnto source.id target).length⟩, db') := by
  have hsome : (db.mailbox? target).isSome := by
    obtain ⟨b, hb, hid⟩ := ht
    rw [mailbox?, hdb.mailbox_ids.find?_eq_some hb hid]
    rfl
  have hmerged : recordMerge { db with
      deliveries := db.deliveries.filterMap (db.mergeRow columnText source.id target) } db columnText
        source.id target = db.mergeDeliveries columnText source.id target := rfl
  have hmove : moveDeliveries { db with
      deliveries := db.deliveries.filterMap (db.collapseRow columnText source.id target) } source.id
        target = .ok { db with
      deliveries := db.deliveries.filterMap (db.mergeRow columnText source.id target) } :=
    moveDeliveries_collapsed (Ne.symm hne) rfl hsome rfl
  unfold mergeMailboxInto Db.mergeMailboxInto
  rw [if_neg hne, if_neg hne]
  dsimp only
  rw [updateMergedDeliveries_eq hdb (Ne.symm hne) hids hrows]
  rw [deleteDuplicates_updated (Ne.symm hne), hmove, countP_collapsed hdb (Ne.symm hne),
    List.length_map, hrows.length_eq, length_duplicateDeliveries hdb (Ne.symm hne)]
  dsimp only
  rw [hmerged]
  cases ((db.mergeDeliveries columnText source.id target).updateMailbox target
    fun b => b.mergeMetadata source).deleteMailbox source.id with
  | error e => rfl
  | ok db' => rfl

end BatchWriter
end RapidInbox

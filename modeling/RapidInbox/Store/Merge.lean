import RapidInbox.Store.Tables

/-!
# Merging mailboxes

`merge_mailbox_into` (`batch_writer.cpp:1308-1456`) and `promote_mailbox_ownership`
(`domains.py:321-407`) move the deliveries of one mailbox to another.  They agree on the rows: a
message that is in both keeps the target's delivery, merged with the source's, and every delivery
that arrives is stamped with the target's generation.
-/

namespace RapidInbox

/-- `delivery_status_rank`. -/
def DeliveryStatus.rank : DeliveryStatus → Nat
  | .active => 2
  | .hidden => 1
  | .deleted => 0

/-- The status of a collapsed delivery: the source's when it ranks higher
    (`_merged_delivery_status` looks for the same status in the same order). -/
def mergedDeliveryStatus (target source : DeliveryStatus) : DeliveryStatus :=
  if target.rank < source.rank then source else target

/-- No expiry wins over every expiry, else the later one (`_merged_expiration`). -/
def mergedExpiration : Option Timestamp → Option Timestamp → Option Timestamp
  | some t, some s => some (max t s)
  | _, _ => none

/-- The earlier deletion time, if the merged delivery is deleted. -/
def mergedDeletedAt (status : DeliveryStatus) :
    Option Timestamp → Option Timestamp → Option Timestamp
  | target, source =>
    if status = .deleted then
      match target, source with
      | some t, some s => some (min t s)
      | some t, none => some t
      | none, s => s
    else none

/-- `optional_column_text`: the daemon copies a column as a C string, which ends at the first NUL. -/
def columnText (column : Text) : Text := column.takeWhile fun c => c ≠ '\x00'

/-- The target's delivery after the source's copy of the same message is collapsed onto it; `read`
    is how the client library hands over a text column. -/
def DeliveryRow.collapse (read : Text → Text) (target source : DeliveryRow) (generation : Nat) :
    DeliveryRow :=
  let status := mergedDeliveryStatus target.status source.status
  { target with
    deliveredAt := min target.deliveredAt source.deliveredAt
    status := status
    deletedAt := mergedDeletedAt status target.deletedAt source.deletedAt
    expiresAt := mergedExpiration target.expiresAt source.expiresAt
    notes := (target.notes.or source.notes).map read
    mailboxGeneration := generation }

namespace Db

/-- The delivery of a message in a mailbox (`UNIQUE (message_id, mailbox_id)`). -/
def deliveryOf? (db : Db) (messageId : Text) (mailboxId : Nat) : Option DeliveryRow :=
  db.deliveries.find? fun d => d.messageId = messageId && d.mailboxId = mailboxId

/-- What a merge does to one row of `message_deliveries`: a target's row takes in the copy it
    collapses with, a source's row with a copy in the target goes, and the other rows of the source
    move. -/
def mergeRow (db : Db) (read : Text → Text) (source target : Nat) (d : DeliveryRow) :
    Option DeliveryRow :=
  if d.mailboxId = target then
    match db.deliveryOf? d.messageId source with
    | some copy => some (d.collapse read copy (db.generationOf target))
    | none => some d
  else if d.mailboxId = source then
    if (db.deliveryOf? d.messageId target).isSome then none
    else some { d with mailboxId := target, mailboxGeneration := db.generationOf target }
  else some d

/-- The target's deliveries that a merge collapses a copy onto. -/
def collapsedOnto (db : Db) (source target : Nat) : List Text :=
  (db.deliveries.filter fun d =>
    d.mailboxId = target && (db.deliveryOf? d.messageId source).isSome).map DeliveryRow.id

/-- A row that a merge moves or collapses a copy onto, and that is active after it. -/
def isStamped (db : Db) (read : Text → Text) (source target : Nat) (d : DeliveryRow) : Bool :=
  match db.mergeRow read source target d with
  | none => false
  | some d' =>
    d'.status = .active &&
      (d.mailboxId = source || (d.mailboxId = target && (db.deliveryOf? d.messageId source).isSome))

/-- The statements `update_merged_delivery`, `delete_duplicate_deliveries` and `move_deliveries`,
    for two different mailboxes. -/
def mergeDeliveries (db : Db) (read : Text → Text) (source target : Nat) : Db :=
  { db with
    deliveries := db.deliveries.filterMap (db.mergeRow read source target)
    merges := db.merges ++
      [⟨source, target,
        (db.deliveries.filter (db.isStamped read source target)).map DeliveryRow.id⟩] }

end Db

/-- `merge_mailbox_metadata`: the stricter flags and the wider time span win.  The source's notes
    come from its `MailboxRecord`. -/
def MailboxRow.mergeMetadata (target source : MailboxRow) : MailboxRow :=
  { target with
    firstSeenAt := min target.firstSeenAt source.firstSeenAt
    lastSeenAt := max target.lastSeenAt source.lastSeenAt
    publicEnabled := target.publicEnabled && source.publicEnabled
    isHidden := target.isHidden || source.isHidden
    notes := target.notes.or (source.notes.map columnText) }

/-- `touch_mailbox`: one more message, at `receivedAt`. -/
def MailboxRow.touch (b : MailboxRow) (receivedAt : Timestamp) : MailboxRow :=
  { b with
    lastSeenAt := max b.lastSeenAt receivedAt
    latestMessageAt := some (max (b.latestMessageAt.getD receivedAt) receivedAt)
    messageCount := b.messageCount + 1 }

/-- The two derived columns, recomputed from the active deliveries of the mailbox. -/
def MailboxRow.withSummary (b : MailboxRow) (active : List DeliveryRow) : MailboxRow :=
  { b with messageCount := active.length, latestMessageAt := Db.latestOf active }

end RapidInbox

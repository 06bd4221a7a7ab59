import RapidInbox.Store.Tables

/-!
# The live outbox

The table `mailbox_live_events` and its triggers (`sqlite_schema.sql:256-297`), with the tables they
read.  Every transaction that touches deliveries or the parse columns of a message leaves rows here
for the process that fans them out.
-/

namespace RapidInbox

open Table

inductive LiveEventType where
  | mailboxDelivery
  | mailboxDeliveryUpdated
  deriving DecidableEq, Repr

/-- A row of `mailbox_live_events`. -/
structure LiveEventRow where
  id : Nat
  eventType : LiveEventType
  deliveryId : Text
  createdAt : Timestamp
  deriving DecidableEq, Repr

/-- The outbox with the tables of its join; `seq` is the `AUTOINCREMENT` sequence. -/
structure OutboxTables where
  deliveries : List DeliveryRow
  messages : List MessageRow
  mailboxes : List MailboxRow
  events : List LiveEventRow
  seq : Nat
  deriving DecidableEq, Repr

namespace OutboxTables

def empty : OutboxTables := ⟨[], [], [], [], 0⟩

/-! ## Triggers -/

def insertEvent (t : OutboxTables) (eventType : LiveEventType) (deliveryId : Text)
    (createdAt : Timestamp) : OutboxTables :=
  { t with
    events := t.events ++ [⟨t.seq + 1, eventType, deliveryId, createdAt⟩]
    seq := t.seq + 1 }

def hasEvent (t : OutboxTables) (eventType : LiveEventType) (deliveryId : Text) : Bool :=
  t.events.any fun e => e.eventType = eventType && e.deliveryId = deliveryId

/-- `mailbox_live_events_after_delivery_insert`; the pair of type and delivery is unique. -/
def afterDeliveryInsert (t : OutboxTables) (d : DeliveryRow) : Option OutboxTables :=
  if d.status ≠ .active then some t
  else if t.hasEvent .mailboxDelivery d.id then none
  else some (t.insertEvent .mailboxDelivery d.id d.deliveredAt)

/-- `INSERT OR REPLACE` of an update event: the row gets a new id. -/
def replaceUpdate (createdAt : Timestamp) (t : OutboxTables) (deliveryId : Text) : OutboxTables :=
  insertEvent
    { t with
      events := t.events.filter fun e =>
        !(e.eventType = .mailboxDeliveryUpdated && e.deliveryId = deliveryId) }
    .mailboxDeliveryUpdated deliveryId createdAt

/-- `mailbox_live_events_after_message_parse_update`. -/
def afterParseUpdate (t : OutboxTables) (m : MessageRow) : OutboxTables :=
  ((t.deliveries.filter fun d => d.messageId = m.id && d.status = .active).map DeliveryRow.id).foldl
    (replaceUpdate (m.content.indexedAt.getD m.receivedAt)) t

/-- The rows whose `parse_status` or `indexed_at` an update has changed. -/
def parseChanged (old new : List MessageRow) : List MessageRow :=
  new.filter fun m => old.any fun m' => m'.id = m.id &&
    (m'.content.parseStatus ≠ m.content.parseStatus || m'.content.indexedAt ≠ m.content.indexedAt)

/-- Every delivery has its message and its mailbox. -/
def foreignKeys (t : OutboxTables) : Bool :=
  t.deliveries.all fun d =>
    (t.messages.any fun m => m.id = d.messageId) && t.mailboxes.any fun b => b.id = d.mailboxId

/-! ## Changes -/

end OutboxTables

/-- A change of the tables, as far as the outbox sees it. -/
inductive OutboxChange where
  | insertDelivery (d : DeliveryRow)
  /-- an update of deliveries in columns other than the key -/
  | updateDeliveries (p : DeliveryRow → Bool) (f : DeliveryRow → DeliveryRow)
  /-- the events cascade, and the trigger deletes them as well -/
  | deleteDeliveries (p : DeliveryRow → Bool)
  /-- any change of `messages` to the table given -/
  | setMessages (messages : List MessageRow)
  | setMailboxes (mailboxes : List MailboxRow)

namespace OutboxChange

/-- The tables after a change and its triggers, before the foreign keys are checked. -/
def tables (t : OutboxTables) : OutboxChange → Option OutboxTables
  | .insertDelivery d =>
    if t.deliveries.any fun d' => d'.id = d.id then none
    else OutboxTables.afterDeliveryInsert { t with deliveries := t.deliveries ++ [d] } d
  | .updateDeliveries p f =>
    some { t with deliveries := updateWhere p (fun d => { f d with id := d.id }) t.deliveries }
  | .deleteDeliveries p =>
    some { t with
      deliveries := t.deliveries.filter fun d => !p d
      events := t.events.filter fun e =>
        !t.deliveries.any fun d => d.id = e.deliveryId && p d }
  | .setMessages messages =>
    some ((OutboxTables.parseChanged t.messages messages).foldl OutboxTables.afterParseUpdate
      { t with messages := messages })
  | .setMailboxes mailboxes => some { t with mailboxes := mailboxes }

/-- One statement. -/
def apply (t : OutboxTables) (change : OutboxChange) : Option OutboxTables :=
  (change.tables t).bind fun t' => if t'.foreignKeys then some t' else none

end OutboxChange

/-! ## What the schema keeps -/

namespace OutboxTables

/-- Ids ascend and are never used again, and foreign keys hold. -/
structure Wellformed (t : OutboxTables) : Prop where
  ascending : t.events.Pairwise fun e e' => e.id < e'.id
  positive : ∀ e ∈ t.events, 0 < e.id
  seq_le : ∀ e ∈ t.events, e.id ≤ t.seq
  parents : t.foreignKeys = true

/-- A change of the events: rows go, and new ones come behind every id used before. -/
structure EventsAdvance (t t' : OutboxTables) : Prop where
  seq_le : t.seq ≤ t'.seq
  ascending : t.events.Pairwise (fun e e' => e.id < e'.id) → (∀ e ∈ t.events, e.id ≤ t.seq) →
    t'.events.Pairwise fun e e' => e.id < e'.id
  origin : ∀ e ∈ t'.events, e ∈ t.events ∨ t.seq < e.id ∧ e.id ≤ t'.seq

variable {t t' t'' : OutboxTables}

theorem EventsAdvance.bound (h : EventsAdvance t t') (hle : ∀ e ∈ t.events, e.id ≤ t.seq) :
    ∀ e ∈ t'.events, e.id ≤ t'.seq := by
  intro e he
  rcases h.origin e he with hold | ⟨-, hnew⟩
  · exact Nat.le_trans (hle e hold) h.seq_le
  · exact hnew

theorem EventsAdvance.trans (h : EventsAdvance t t') (h' : EventsAdvance t' t'') :
    EventsAdvance t t'' where
  seq_le := Nat.le_trans h.seq_le h'.seq_le
  ascending hsorted hle := h'.ascending (h.ascending hsorted hle) (h.bound hle)
  origin e he := by
    have hseq := h.seq_le
    have hseq' := h'.seq_le
    rcases h'.origin e he with hold | ⟨hlow, hhigh⟩
    · rcases h.origin e hold with hold | ⟨hlow, hhigh⟩
      · exact .inl hold
      · exact .inr ⟨hlow, by omega⟩
    · exact .inr ⟨by omega, hhigh⟩

/-- The other tables change. -/
theorem EventsAdvance.of_events_eq (hevents : t'.events = t.events) (hseq : t'.seq = t.seq) :
    EventsAdvance t t' where
  seq_le := Nat.le_of_eq hseq.symm
  ascending hsorted _ := hevents ▸ hsorted
  origin _ he := .inl (hevents ▸ he)

/-- Rows go. -/
theorem EventsAdvance.of_sublist (hevents : t'.events.Sublist t.events) (hseq : t'.seq = t.seq) :
    EventsAdvance t t' where
  seq_le := Nat.le_of_eq hseq.symm
  ascending hsorted _ := hsorted.sublist hevents
  origin _ he := .inl (hevents.subset he)

theorem insertEvent_advance (t : OutboxTables) (eventType : LiveEventType) (deliveryId : Text)
    (createdAt : Timestamp) : EventsAdvance t (t.insertEvent eventType deliveryId createdAt) where
  seq_le := Nat.le_succ _
  ascending hsorted hle := by
    refine List.pairwise_append.mpr ⟨hsorted, List.pairwise_singleton _ _, ?_⟩
    intro e he e' he'
    rw [List.mem_singleton.mp he']
    exact Nat.lt_succ_of_le (hle e he)
  origin e he := by
    rcases List.mem_append.mp he with he | he
    · exact .inl he
    · rw [List.mem_singleton.mp he]
      exact .inr ⟨Nat.lt_succ_self _, Nat.le_refl _⟩

theorem replaceUpdate_advance (t : OutboxTables) (createdAt : Timestamp) (deliveryId : Text) :
    EventsAdvance t (replaceUpdate createdAt t deliveryId) := by
  have hfilter : EventsAdvance t { t with
      events := t.events.filter fun e =>
        !(e.eventType = .mailboxDeliveryUpdated && e.deliveryId = deliveryId) } :=
    .of_sublist List.filter_sublist rfl
  exact hfilter.trans (insertEvent_advance _ _ _ _)

theorem foldl_advance {α : Type} {step : OutboxTables → α → OutboxTables}
    (hstep : ∀ t a, EventsAdvance t (step t a)) (as : List α) (t : OutboxTables) :
    EventsAdvance t (as.foldl step t) := by
  induction as generalizing t with
  | nil => exact .of_events_eq rfl rfl
  | cons a as ih => exact (hstep t a).trans (ih (step t a))

theorem afterParseUpdate_advance (t : OutboxTables) (m : MessageRow) :
    EventsAdvance t (t.afterParseUpdate m) :=
  foldl_advance (fun t id => replaceUpdate_advance t _ id) _ t

end OutboxTables

open OutboxTables in
theorem OutboxChange.apply_advance {t t' : OutboxTables} {change : OutboxChange}
    (h : change.apply t = some t') : EventsAdvance t t' ∧ t'.foreignKeys = true := by
  obtain ⟨t₁, htables, hcheck⟩ := Option.bind_eq_some_iff.mp h
  split at hcheck
  · rename_i hkeys
    cases hcheck
    refine ⟨?_, hkeys⟩
    cases change with
    | insertDelivery d =>
      unfold OutboxChange.tables afterDeliveryInsert at htables
      dsimp only at htables
      split at htables
      · cases htables
      · split at htables
        · cases htables
          exact .of_events_eq rfl rfl
        · split at htables
          · cases htables
          · cases htables
            have hrow : EventsAdvance t { t with deliveries := t.deliveries ++ [d] } :=
              .of_events_eq rfl rfl
            exact hrow.trans (insertEvent_advance _ _ _ _)
    | updateDeliveries p f =>
      cases htables
      exact .of_events_eq rfl rfl
    | deleteDeliveries p =>
      cases htables
      exact .of_sublist List.filter_sublist rfl
    | setMessages messages =>
      cases htables
      have hrows : EventsAdvance t { t with messages := messages } := .of_events_eq rfl rfl
      exact hrows.trans (foldl_advance afterParseUpdate_advance _ _)
    | setMailboxes mailboxes =>
      cases htables
      exact .of_events_eq rfl rfl
  · cases hcheck

/-- A database file, with what its schema keeps. -/
structure Outbox where
  tables : OutboxTables
  wellformed : tables.Wellformed

namespace Outbox

def empty : Outbox where
  tables := .empty
  wellformed :=
    { ascending := .nil
      positive := fun _ he => absurd he List.not_mem_nil
      seq_le := fun _ he => absurd he List.not_mem_nil
      parents := rfl }

theorem wellformed_of_advance (o : Outbox) {t : OutboxTables}
    (h : OutboxTables.EventsAdvance o.tables t) (hkeys : t.foreignKeys = true) : t.Wellformed where
  ascending := h.ascending o.wellformed.ascending o.wellformed.seq_le
  positive e he := by
    rcases h.origin e he with hold | ⟨hnew, -⟩
    · exact o.wellformed.positive e hold
    · omega
  seq_le := h.bound o.wellformed.seq_le
  parents := hkeys

/-- One statement. -/
def apply (o : Outbox) (change : OutboxChange) : Option Outbox :=
  match h : change.apply o.tables with
  | none => none
  | some t =>
    let hadvance := OutboxChange.apply_advance h
    some ⟨t, o.wellformed_of_advance hadvance.1 hadvance.2⟩

/-- A transaction: a statement that fails rolls all of it back. -/
def transaction (o : Outbox) (changes : List OutboxChange) : Outbox :=
  (changes.foldlM apply o).getD o

/-- `_clear_mail_tables`, which keeps the sequence of the outbox. -/
def clearMailTables (o : Outbox) : Outbox where
  tables := { o.tables with deliveries := [], messages := [], mailboxes := [], events := [] }
  wellformed :=
    { ascending := .nil
      positive := fun _ he => absurd he List.not_mem_nil
      seq_le := fun _ he => absurd he List.not_mem_nil
      parents := rfl }

theorem apply_advance {o o' : Outbox} {change : OutboxChange} (h : o.apply change = some o') :
    OutboxTables.EventsAdvance o.tables o'.tables := by
  unfold apply at h
  split at h
  · cases h
  · rename_i t ht
    cases h
    exact (OutboxChange.apply_advance ht).1

theorem transaction_advance (o : Outbox) (changes : List OutboxChange) :
    OutboxTables.EventsAdvance o.tables (o.transaction changes).tables := by
  have hfold (o₁ : Outbox) (changes : List OutboxChange) (o' : Outbox)
      (h : changes.foldlM apply o₁ = some o') :
      OutboxTables.EventsAdvance o₁.tables o'.tables := by
    induction changes generalizing o₁ with
    | nil =>
      cases h
      exact .of_events_eq rfl rfl
    | cons change changes ih =>
      obtain ⟨o₂, hstep, hrest⟩ := Option.bind_eq_some_iff.mp h
      exact (apply_advance hstep).trans (ih o₂ hrest)
  unfold transaction
  cases h : changes.foldlM apply o with
  | none => exact .of_events_eq rfl rfl
  | some o' => exact hfold o changes o' h

theorem clearMailTables_advance (o : Outbox) :
    OutboxTables.EventsAdvance o.tables o.clearMailTables.tables :=
  .of_sublist (List.nil_sublist _) rfl

end Outbox
end RapidInbox

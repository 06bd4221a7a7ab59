import Mathlib.Data.List.Dedup
import RapidInbox.Store.MailWrites
import RapidInbox.Store.SummaryRuns

/-!
# The retention transaction

`_expire_delivery_batch` (`runtime.py:874-1012`) statement by statement, with the two temporary
tables of the writer's connection.  Any statement may raise; the writer then rolls back.

The batch is a snapshot of an earlier state.  Ids of deliveries are drawn at random, so a delivery
that is in the snapshot and still there is the same delivery.
-/

namespace RapidInbox

open Table Relation

/-! ## The statements -/

/-- The tables, and the temporary tables `_retention_delivery_batch` and
    `_retention_orphan_message_batch`. -/
structure RetentionConnection where
  db : Db
  deliveryBatch : List RetentionEntry
  orphanBatch : List Text

/-- A statement that may raise. -/
abbrev RetentionStatement := RetentionConnection → Except DbError RetentionConnection

namespace RetentionConnection

variable (c : RetentionConnection)

/-- `_prepare_retention_temp_tables` and `_clear_retention_temp_tables`. -/
def resetTempTables : Except DbError RetentionConnection :=
  .ok { c with deliveryBatch := [], orphanBatch := [] }

/-- The inserts of the snapshot; `id` is the primary key. -/
def insertBatch : List RetentionEntry → RetentionConnection → Except DbError RetentionConnection
  | [], c => .ok c
  | e :: batch, c =>
    if c.deliveryBatch.any fun e' => e'.id = e.id then .error .primaryKey
    else insertBatch batch { c with deliveryBatch := c.deliveryBatch ++ [e] }

/-- The rows of the batch that no longer match a delivery go. -/
def deleteUnmatched (now : Timestamp) : Except DbError RetentionConnection :=
  .ok { c with deliveryBatch := c.db.revalidate now c.deliveryBatch }

/-- `DELETE FROM message_deliveries`. -/
def deleteDeliveries : Except DbError RetentionConnection :=
  .ok
    { c with
      db := { c.db with
        deliveries := c.db.deliveries.filter fun d =>
          decide (d.id ∉ c.deliveryBatch.map RetentionEntry.id) } }

/-- `INSERT OR IGNORE INTO _retention_orphan_message_batch`. -/
def collectOrphans : Except DbError RetentionConnection :=
  .ok { c with orphanBatch := (c.db.orphanMessages c.deliveryBatch).dedup }

/-- `_queue_orphan_message_files`. -/
def queueOrphanFiles : Except DbError RetentionConnection :=
  .ok
    { c with
      db := { c.db with
        fileGcTasks := (c.db.orphanFiles c.orphanBatch).foldl Db.queueFile c.db.fileGcTasks } }

/-- `DELETE FROM messages`. -/
def deleteOrphans : Except DbError RetentionConnection :=
  .ok { c with db := c.db.deleteMessages c.orphanBatch }

/-- `_refresh_retention_mailbox_summaries`. -/
def refreshSummaries (refreshedAt : Timestamp) : Except DbError RetentionConnection :=
  .ok
    { c with
      db := c.db.refreshDeletionSummaries
        (fun b => decide (b.id ∈ c.deliveryBatch.map RetentionEntry.mailboxId)) refreshedAt }

/-- `_delete_stale_empty_mailbox_batch`. -/
def deleteStaleMailboxes (cutoff : Timestamp) (limit : Nat) : Except DbError RetentionConnection :=
  .ok { c with db := c.db.deleteStaleEmptyMailboxes cutoff limit }

end RetentionConnection

open RetentionConnection in
/-- The statements of `_expire_delivery_batch` in order.  The first is the check of the caller and the
    last the `COMMIT`; they raise or change nothing. -/
def retentionStatements (now refreshedAt cutoff : Timestamp) (limit : Nat)
    (batch : List RetentionEntry) : List RetentionStatement :=
  [.ok, resetTempTables, insertBatch batch, (deleteUnmatched · now), deleteDeliveries,
    collectOrphans, queueOrphanFiles, deleteOrphans, (refreshSummaries · refreshedAt),
    (deleteStaleMailboxes · cutoff limit), resetTempTables, .ok]

/-- Run statements; `fault k` is what the `k`-th raises from outside (a caller that is not
    authorized, a full disk, an I/O error). -/
def runStatements (fault : Nat → Option DbError) :
    Nat → List RetentionStatement → RetentionStatement
  | _, [], c => .ok c
  | k, statement :: statements, c =>
    match fault k with
    | some e => .error e
    | none =>
      match statement c with
      | .error e => .error e
      | .ok c => runStatements fault (k + 1) statements c

/-- `_expire_delivery_batch`. -/
def expireTransaction (fault : Nat → Option DbError) (now refreshedAt cutoff : Timestamp)
    (limit : Nat) (batch : List RetentionEntry) : RetentionStatement :=
  runStatements fault 0 (retentionStatements now refreshedAt cutoff limit batch)

/-- `DatabaseWriter.execute` of a transaction: what it raises rolls everything back. -/
def RetentionConnection.execute (c : RetentionConnection) (transaction : RetentionStatement) :
    RetentionConnection :=
  match transaction c with
  | .ok c' => c'
  | .error _ => c

/-! ## What the transaction is for -/

namespace Db

/-- A delivery that is in the batch with its current status, and is due. -/
def expires (now : Timestamp) (batch : List RetentionEntry) (d : DeliveryRow) : Bool :=
  batch.any fun e => e.id = d.id && e.status = d.status && isDue d now

/-- A message that loses its last delivery to the batch. -/
def losesLast (db : Db) (now : Timestamp) (batch : List RetentionEntry) (messageId : Text) : Bool :=
  (db.deliveries.any fun d => d.messageId = messageId && expires now batch d) &&
    db.deliveries.all fun d => d.messageId ≠ messageId || expires now batch d

/-- The files of a message: the raw message, the bodies it has, the manifest and the attachments.  An
    empty column names no file. -/
def messageFiles (db : Db) (m : MessageRow) : List Text :=
  ([m.rawPath] ++ m.content.textBodyPath.toList ++ m.content.htmlBodyPath.toList ++
    [manifestPath m.id m.receivedAt]).filter (fun path => !path.isEmpty) ++
  (db.attachments.filter fun a => a.messageId = m.id).map AttachmentRow.storagePath

/-- The deliveries that expire are gone, with the messages that lost their last one, and the files of
    these messages are queued for deletion. -/
structure Retired (now : Timestamp) (batch : List RetentionEntry) (db db' : Db) : Prop where
  deliveries : db'.deliveries = db.deliveries.filter fun d => !expires now batch d
  messages : db'.messages = db.messages.filter fun m => !db.losesLast now batch m.id
  queued : ∀ m ∈ db.messages, db.losesLast now batch m.id = true → ∀ path ∈ db.messageFiles m,
    path ∈ db'.fileGcTasks
  tasks : ∀ path ∈ db.fileGcTasks, path ∈ db'.fileGcTasks

end Db

/-! ## The statements together -/

section Statements

variable {fault : Nat → Option DbError} {now refreshedAt cutoff : Timestamp} {limit : Nat}
  {batch : List RetentionEntry} {c c' : RetentionConnection} {db : Db}

theorem insertBatch_ok (h : RetentionConnection.insertBatch batch c = .ok c') :
    c' = { c with deliveryBatch := c.deliveryBatch ++ batch } := by
  induction batch generalizing c with
  | nil =>
    cases h
    simp
  | cons e batch ih =>
    rw [RetentionConnection.insertBatch] at h
    split at h
    · cases h
    · rw [ih h]
      simp

theorem insertBatch_distinct (hids : UniqueKey RetentionEntry.id (c.deliveryBatch ++ batch)) :
    RetentionConnection.insertBatch batch c =
      .ok { c with deliveryBatch := c.deliveryBatch ++ batch } := by
  induction batch generalizing c with
  | nil => simp [RetentionConnection.insertBatch]
  | cons e batch ih =>
    have hnew : c.deliveryBatch.any (fun e' => e'.id = e.id) = false := by
      rw [List.any_eq_false]
      intro e' he' heq
      unfold UniqueKey at hids
      rw [List.map_append, List.nodup_append'] at hids
      have hid : e'.id = e.id := by simpa using heq
      exact hids.2.2 (List.mem_map_of_mem he') (by simp [hid])
    rw [RetentionConnection.insertBatch, if_neg (by simp [hnew]), ih (by simpa using hids)]
    simp

/-- A statement list without a fault is the chain of its statements. -/
theorem runStatements_ok {k : Nat} {statement : RetentionStatement}
    {statements : List RetentionStatement}
    (h : runStatements fault k (statement :: statements) c = .ok c') :
    ∃ c₁, statement c = .ok c₁ ∧ runStatements fault (k + 1) statements c₁ = .ok c' := by
  rw [runStatements] at h
  split at h
  · cases h
  · split at h
    · cases h
    · exact ⟨_, ‹_›, h⟩

theorem deleteMessages_congr {ids ids' : List Text} (h : ∀ id, id ∈ ids ↔ id ∈ ids') :
    db.deleteMessages ids = db.deleteMessages ids' := by
  simp [Db.deleteMessages, h]

theorem orphanFiles_congr {ids ids' : List Text} (h : ∀ id, id ∈ ids ↔ id ∈ ids') :
    db.orphanFiles ids = db.orphanFiles ids' := by
  simp [Db.orphanFiles, h]

/-- The state after the statements, in terms of the tables they started from. -/
def retentionResult (now refreshedAt cutoff : Timestamp) (limit : Nat) (batch : List RetentionEntry)
    (c : RetentionConnection) : RetentionConnection :=
  ⟨c.db.expireDeliveryBatch now refreshedAt cutoff limit batch, [], []⟩

/-- The statements after the inserts compute `expireDeliveryBatch`. -/
theorem expireTransaction_ok (h : expireTransaction fault now refreshedAt cutoff limit batch c = .ok c') :
    c' = retentionResult now refreshedAt cutoff limit batch c := by
  obtain ⟨c₀, hc₀, h⟩ := runStatements_ok h
  cases hc₀
  obtain ⟨c₁, hc₁, h⟩ := runStatements_ok h
  cases hc₁
  obtain ⟨c₂, hc₂, h⟩ := runStatements_ok h
  have hc₂ := insertBatch_ok hc₂
  subst hc₂
  obtain ⟨c₃, hc₃, h⟩ := runStatements_ok h
  cases hc₃
  obtain ⟨c₄, hc₄, h⟩ := runStatements_ok h
  cases hc₄
  obtain ⟨c₅, hc₅, h⟩ := runStatements_ok h
  cases hc₅
  obtain ⟨c₆, hc₆, h⟩ := runStatements_ok h
  cases hc₆
  obtain ⟨c₇, hc₇, h⟩ := runStatements_ok h
  cases hc₇
  obtain ⟨c₈, hc₈, h⟩ := runStatements_ok h
  cases hc₈
  obtain ⟨c₉, hc₉, h⟩ := runStatements_ok h
  cases hc₉
  obtain ⟨c₁₀, hc₁₀, h⟩ := runStatements_ok h
  cases hc₁₀
  obtain ⟨c₁₁, hc₁₁, h⟩ := runStatements_ok h
  cases hc₁₁
  cases h
  simp only [retentionResult, Db.expireDeliveryBatch, Db.expireDeliveries, List.nil_append,
    orphanFiles_congr fun _ => List.mem_dedup, deleteMessages_congr fun _ => List.mem_dedup]

/-- Without a fault the transaction commits: only the inserts of the batch could fail, and its ids are
    distinct. -/
theorem expireTransaction_total (hfault : ∀ k, fault k = none)
    (hids : UniqueKey RetentionEntry.id batch) :
    ∃ c', expireTransaction fault now refreshedAt cutoff limit batch c = .ok c' := by
  have hinsert : RetentionConnection.insertBatch batch ⟨c.db, [], []⟩ = .ok ⟨c.db, batch, []⟩ :=
    insertBatch_distinct (c := ⟨c.db, [], []⟩) (by simpa using hids)
  simp only [expireTransaction, retentionStatements, runStatements, hfault,
    RetentionConnection.resetTempTables, hinsert]
  exact ⟨_, rfl⟩

end Statements

/-! ## The ids of a snapshot -/

section Ids

variable {db : Db} {batch : List RetentionEntry}

/-- A delivery with an id of the batch is of the message the batch names. -/
def Db.NamesMessages (batch : List RetentionEntry) (db : Db) : Prop :=
  ∀ e ∈ batch, ∀ d ∈ db.deliveries, d.id = e.id → d.messageId = e.messageId

/-- A write inserts deliveries under the ids of the batch for the messages of the batch only: ids are
    random (`uuid4`), and a job that is tried again is of the same message. -/
def MailWrite.KeepsIds (batch : List RetentionEntry) (w : MailWrite) : Prop :=
  ∀ e ∈ batch, ∀ messageId, w.InsertsMail (.delivery e.id messageId) → messageId = e.messageId

theorem Db.write_namesMessages {E : StoreEnv} {w : MailWrite} (hdb : db.Consistent)
    (hw : w.KeepsIds batch) (h : db.NamesMessages batch) : (db.write E w).NamesMessages batch := by
  intro e he d' hd' hid
  rcases Db.write_origin hdb w hd' with ⟨d, hd, hdid, hdmsg⟩ | hnew
  · exact hdmsg.trans (h e he d hd (hdid.symm.trans hid))
  · exact hw e he d'.messageId (hid ▸ hnew)

theorem Db.writes_namesMessages {E : StoreEnv} {ws : List MailWrite} (hdb : db.Consistent)
    (hws : ∀ w ∈ ws, w.KeepsIds batch) (h : db.NamesMessages batch) :
    (db.writes E ws).NamesMessages batch := by
  induction ws generalizing db with
  | nil => exact h
  | cons w ws ih =>
    apply ih (Db.write_consistent hdb w)
    · exact fun w hw => hws w (List.mem_cons_of_mem _ hw)
    · exact Db.write_namesMessages hdb (hws w List.mem_cons_self) h

/-- Where the entries of a snapshot come from. -/
theorem mem_expirationBatchSnapshot {now : Timestamp} {limit : Nat} {e : RetentionEntry}
    (he : e ∈ db.expirationBatchSnapshot now limit) :
    ∃ d ∈ db.deliveries, e = ⟨d.id, d.messageId, d.mailboxId, d.status⟩ ∧ Db.isDue d now := by
  obtain ⟨d, hd, rfl⟩ := List.mem_map.mp he
  have hsorted := List.mem_of_mem_take hd
  rw [List.mem_insertionSort] at hsorted
  obtain ⟨hmem, hdue⟩ := List.mem_filter.mp hsorted
  exact ⟨d, hmem, rfl, hdue⟩

theorem expirationBatchSnapshot_namesMessages (hdb : db.Consistent) (now : Timestamp) (limit : Nat) :
    db.NamesMessages (db.expirationBatchSnapshot now limit) := by
  intro e he d hd hid
  obtain ⟨d₀, hd₀, rfl, -⟩ := mem_expirationBatchSnapshot he
  rw [hdb.delivery_ids.eq_of_mem hd hd₀ hid]

theorem expirationBatchSnapshot_distinct (hdb : db.Consistent) (now : Timestamp) (limit : Nat) :
    UniqueKey RetentionEntry.id (db.expirationBatchSnapshot now limit) := by
  have hsorted : UniqueKey DeliveryRow.id ((db.deliveries.filter fun d =>
      Db.isDue d now).insertionSort fun a b => Db.dueBefore a b) := by
    unfold UniqueKey
    rw [((List.perm_insertionSort _ _).map DeliveryRow.id).nodup_iff]
    exact hdb.delivery_ids.filter _
  have htake := hsorted.sublist ((List.take_sublist limit _).map DeliveryRow.id)
  rw [UniqueKey, Db.expirationBatchSnapshot, List.map_map]
  exact htake

end Ids

/-! ## What the batch removes -/

namespace Db

variable {now refreshedAt cutoff : Timestamp} {limit : Nat} {batch : List RetentionEntry} {db : Db}

theorem expires_iff {d : DeliveryRow} :
    expires now batch d ↔ ∃ e ∈ batch, e.id = d.id ∧ e.status = d.status ∧ isDue d now := by
  simp [expires, and_assoc]

/-- The batch that is left after the check holds the deliveries that expire. -/
theorem mem_revalidate {e : RetentionEntry} :
    e ∈ db.revalidate now batch ↔
      e ∈ batch ∧ ∃ d ∈ db.deliveries, d.id = e.id ∧ d.status = e.status ∧ isDue d now := by
  simp [revalidate, and_assoc]

theorem id_mem_revalidate (hdb : db.Consistent) {d : DeliveryRow} (hd : d ∈ db.deliveries) :
    d.id ∈ (db.revalidate now batch).map RetentionEntry.id ↔ expires now batch d := by
  rw [expires_iff, List.mem_map]
  constructor
  · rintro ⟨e, he, hid⟩
    obtain ⟨hmem, d', hd', hid', hstatus, hdue⟩ := mem_revalidate.mp he
    obtain rfl := hdb.delivery_ids.eq_of_mem hd' hd (hid'.trans hid)
    exact ⟨e, hmem, hid, hstatus.symm, hdue⟩
  · rintro ⟨e, he, hid, hstatus, hdue⟩
    exact ⟨e, mem_revalidate.mpr ⟨he, d, hd, hid.symm, hstatus.symm, hdue⟩, hid⟩

theorem expireDeliveryBatch_deliveries (hdb : db.Consistent) :
    (db.expireDeliveryBatch now refreshedAt cutoff limit batch).deliveries =
      db.deliveries.filter fun d => !expires now batch d := by
  change (db.expireDeliveries now batch).deliveries = _
  rw [expireDeliveries_deliveries]
  apply List.filter_congr
  intro d hd
  by_cases hexp : expires now batch d = true
  · simpa [hexp] using (id_mem_revalidate hdb hd).mpr hexp
  · have hnot := fun h => hexp ((id_mem_revalidate hdb hd).mp h)
    simpa [hexp] using hnot

/-- The rows left by the deletion of the deliveries. -/
def withoutExpired (db : Db) (now : Timestamp) (batch : List RetentionEntry) : Db :=
  { db with
    deliveries := db.deliveries.filter fun d =>
      decide (d.id ∉ (db.revalidate now batch).map RetentionEntry.id) }

theorem mem_withoutExpired (hdb : db.Consistent) {d : DeliveryRow} :
    d ∈ (db.withoutExpired now batch).deliveries ↔ d ∈ db.deliveries ∧ ¬expires now batch d := by
  rw [withoutExpired, List.mem_filter]
  constructor
  · rintro ⟨hd, hnot⟩
    exact ⟨hd, fun hexp => of_decide_eq_true hnot ((id_mem_revalidate hdb hd).mpr hexp)⟩
  · rintro ⟨hd, hnot⟩
    exact ⟨hd, decide_eq_true fun hmem => hnot ((id_mem_revalidate hdb hd).mp hmem)⟩

theorem losesLast_iff {messageId : Text} :
    db.losesLast now batch messageId ↔
      (∃ d ∈ db.deliveries, d.messageId = messageId ∧ expires now batch d) ∧
        ∀ d ∈ db.deliveries, d.messageId = messageId → expires now batch d := by
  simp only [losesLast, Bool.and_eq_true, List.any_eq_true, List.all_eq_true, Bool.or_eq_true,
    decide_eq_true_iff, ne_eq]
  apply and_congr_right
  intro _
  apply forall₂_congr
  intro d _
  by_cases hid : d.messageId = messageId <;> simp [hid]

/-- The messages without a delivery are those that lost their last one to the batch: an entry that is
    still valid names the message of its delivery. -/
theorem mem_orphanMessages (hdb : db.Consistent) (hnames : db.NamesMessages batch)
    {messageId : Text} :
    messageId ∈ (db.withoutExpired now batch).orphanMessages (db.revalidate now batch) ↔
      db.losesLast now batch messageId := by
  rw [losesLast_iff, orphanMessages, List.mem_filter, List.mem_map, Bool.not_eq_true',
    List.any_eq_false]
  have hrest : (∀ d ∈ (db.withoutExpired now batch).deliveries, ¬decide (d.messageId = messageId)) ↔
      ∀ d ∈ db.deliveries, d.messageId = messageId → expires now batch d := by
    constructor
    · intro hnone d hd hmsg
      by_contra hexp
      exact hnone d ((mem_withoutExpired hdb).mpr ⟨hd, hexp⟩) (decide_eq_true hmsg)
    · intro hall d hd hmsg
      obtain ⟨hd, hexp⟩ := (mem_withoutExpired hdb).mp hd
      exact hexp (hall d hd (of_decide_eq_true hmsg))
  rw [hrest]
  apply and_congr_left
  intro _
  constructor
  · rintro ⟨e, he, rfl⟩
    obtain ⟨hmem, d, hd, hid, hstatus, hdue⟩ := mem_revalidate.mp he
    exact ⟨d, hd, hnames e hmem d hd hid, expires_iff.mpr ⟨e, hmem, hid.symm, hstatus.symm, hdue⟩⟩
  · rintro ⟨d, hd, rfl, hexp⟩
    obtain ⟨e, hmem, hid, hstatus, hdue⟩ := expires_iff.mp hexp
    refine ⟨e, mem_revalidate.mpr ⟨hmem, d, hd, hid.symm, hstatus.symm, hdue⟩, ?_⟩
    exact (hnames e hmem d hd hid.symm).symm

theorem mem_foldl_queueFile {paths tasks : List Text} {path : Text} :
    path ∈ paths.foldl queueFile tasks ↔ path ∈ tasks ∨ path ∈ paths := by
  induction paths generalizing tasks with
  | nil => simp
  | cons first paths ih =>
    have hfirst : path ∈ queueFile tasks first ↔ path ∈ tasks ∨ path = first := by
      unfold queueFile
      split
      · constructor
        · exact .inl
        · rintro (h | rfl)
          · exact h
          · assumption
      · simp
    rw [List.foldl_cons, ih, hfirst, List.mem_cons, or_assoc]

theorem mem_orphanFiles {orphans : List Text} {m : MessageRow} (hm : m ∈ db.messages)
    (horphan : m.id ∈ orphans) {path : Text} (hpath : path ∈ db.messageFiles m) :
    path ∈ db.orphanFiles orphans := by
  rcases List.mem_append.mp hpath with hrow | hatt
  · refine List.mem_append_right _ (List.mem_flatMap.mpr ⟨m, ?_, hrow⟩)
    exact List.mem_filter.mpr ⟨hm, decide_eq_true horphan⟩
  · obtain ⟨a, ha, rfl⟩ := List.mem_map.mp hatt
    obtain ⟨ha, hid⟩ := List.mem_filter.mp ha
    have hid : a.messageId = m.id := of_decide_eq_true hid
    refine List.mem_append_left _ (List.mem_map_of_mem (List.mem_filter.mpr ⟨ha, ?_⟩))
    exact decide_eq_true (hid ▸ horphan)

/-- The retention batch does what it is for. -/
theorem expireDeliveryBatch_retired (hdb : db.Consistent) (hnames : db.NamesMessages batch) :
    db.Retired now batch (db.expireDeliveryBatch now refreshedAt cutoff limit batch) where
  deliveries := expireDeliveryBatch_deliveries hdb
  messages := by
    change db.messages.filter (fun m => decide (m.id ∉
      (db.withoutExpired now batch).orphanMessages (db.revalidate now batch))) = _
    apply List.filter_congr
    intro m _
    simp only [mem_orphanMessages hdb hnames]
    by_cases hlast : db.losesLast now batch m.id = true <;> simp [hlast]
  queued := by
    intro m hm hlast path hpath
    change path ∈ List.foldl queueFile db.fileGcTasks _
    refine mem_foldl_queueFile.mpr (.inr ?_)
    exact mem_orphanFiles hm ((mem_orphanMessages hdb hnames).mpr hlast) hpath
  tasks := fun path hpath => mem_foldl_queueFile.mpr (.inl hpath)

end Db

/-! ## The transaction on an old snapshot -/

section Transaction

variable {E : StoreEnv} {start : Db} {now : Timestamp} {limit : Nat} {ws : List MailWrite}
  {c : RetentionConnection}

/-- What is not expired stays, and so does a message with a delivery that stays. -/
theorem Db.Retired.kept {db db' : Db} {batch : List RetentionEntry} (h : db.Retired now batch db') :
    (∀ d ∈ db.deliveries, ¬Db.isDue d now → d ∈ db'.deliveries) ∧
      ∀ m ∈ db.messages, (∃ d ∈ db'.deliveries, d.messageId = m.id) → m ∈ db'.messages := by
  rw [h.deliveries, h.messages]
  constructor
  · intro d hd hdue
    refine List.mem_filter.mpr ⟨hd, ?_⟩
    rw [Bool.not_eq_true', Bool.eq_false_iff]
    intro hexp
    obtain ⟨e, -, -, -, hyes⟩ := Db.expires_iff.mp hexp
    exact hdue hyes
  · rintro m hm ⟨d, hd, hmsg⟩
    obtain ⟨hd, hkept⟩ := List.mem_filter.mp hd
    refine List.mem_filter.mpr ⟨hm, ?_⟩
    rw [Bool.not_eq_true', Bool.eq_false_iff] at hkept ⊢
    intro hlast
    exact hkept ((Db.losesLast_iff.mp hlast).2 d hd hmsg)

/-- The retention transaction on the batch of an earlier state, after any writes: if it commits it
    has removed exactly the deliveries of the batch that are unchanged and due, with the messages
    that lost their last delivery, and queued the files of these; if it raises nothing has changed;
    and without a fault it commits. -/
theorem retention_transaction (hstart : start.Consistent)
    (hids : ∀ w ∈ ws, w.KeepsIds (start.expirationBatchSnapshot now limit))
    (hc : c.db = start.writes E ws) (fault : Nat → Option DbError) (refreshedAt cutoff : Timestamp) :
    let batch := start.expirationBatchSnapshot now limit
    let transaction := expireTransaction fault now refreshedAt cutoff limit batch
    (∀ c', transaction c = .ok c' →
      c.execute transaction = c' ∧ c.db.Retired now batch c'.db ∧
        (∀ d ∈ c.db.deliveries, ¬Db.isDue d now → d ∈ c'.db.deliveries) ∧
        ∀ m ∈ c.db.messages, (∃ d ∈ c'.db.deliveries, d.messageId = m.id) → m ∈ c'.db.messages) ∧
    (∀ e, transaction c = .error e → c.execute transaction = c) ∧
    ((∀ k, fault k = none) → ∃ c', transaction c = .ok c') := by
  intro batch transaction
  refine ⟨?_, ?_, ?_⟩
  · intro c' hok
    have hconsistent : c.db.Consistent := hc ▸ Db.writes_consistent hstart ws
    have hnames : c.db.NamesMessages batch :=
      hc ▸ Db.writes_namesMessages hstart hids (expirationBatchSnapshot_namesMessages hstart now limit)
    have hretired : c.db.Retired now batch c'.db := by
      rw [expireTransaction_ok hok]
      exact Db.expireDeliveryBatch_retired hconsistent hnames
    exact ⟨by simp [RetentionConnection.execute, hok], hretired, hretired.kept⟩
  · intro e hfail
    simp [RetentionConnection.execute, hfail]
  · intro hfault
    exact expireTransaction_total hfault (expirationBatchSnapshot_distinct hstart now limit)

/-- Two messages, the first with a deleted delivery. -/
def retentionStart : List StoreOp :=
  [.syncCatchAll true false false none 1000,
   .commit [sampleJob "m1" 10 [sampleRecipient "d1" (sampleMatch 1 "*" "u" "example.com")]],
   .commit [sampleJob "m2" 12 [sampleRecipient "d2" (sampleMatch 1 "*" "v" "example.com")]],
   .deleteDeliveries ["d1".toList] 20]

/-- A message that arrives after the snapshot. -/
def retentionArrival : List MailWrite :=
  [.store (.commit [sampleJob "m3" 25 [sampleRecipient "d3" (sampleMatch 1 "*" "u" "example.com")]]),
   .parseFailed "m1".toList [] 26]

theorem retentionArrival_keepsIds : ∀ w ∈ retentionArrival,
    w.KeepsIds ((Db.empty.run .ascii retentionStart).expirationBatchSnapshot 30 10) := by
  intro w hw e he messageId hnew
  have hother : ∀ e ∈ (Db.empty.run .ascii retentionStart).expirationBatchSnapshot 30 10,
      "d3".toList ≠ e.id := by decide +kernel
  rcases List.mem_cons.mp hw with rfl | hw
  · obtain ⟨job, hjob, -, r, hr, hid⟩ := hnew
    rw [List.mem_singleton.mp hjob] at hr
    rw [List.mem_singleton.mp hr] at hid
    exact absurd hid (hother e he)
  · rw [List.mem_singleton.mp hw] at hnew
    exact hnew.elim

/-- The deleted delivery goes with its message, though another message arrives first. -/
theorem retention_transaction_first_message :
    ∃ c', expireTransaction (fun _ => none) 30 31 0 10
        ((Db.empty.run .ascii retentionStart).expirationBatchSnapshot 30 10)
        ⟨(Db.empty.run .ascii retentionStart).writes .ascii retentionArrival, [], []⟩ = .ok c' ∧
      c'.db.messages.map MessageRow.id = ["m2".toList, "m3".toList] ∧
      rawMessagePath "m1".toList 10 ∈ c'.db.fileGcTasks := by
  obtain ⟨hcommit, -, htotal⟩ := retention_transaction (E := .ascii) (c := ⟨_, [], []⟩)
    (Db.run_consistent Db.empty_consistent retentionStart) retentionArrival_keepsIds rfl
    (fun _ => none) 31 0
  obtain ⟨c', hc'⟩ := htotal fun _ => rfl
  obtain ⟨-, hretired, -⟩ := hcommit c' hc'
  refine ⟨c', hc', ?_, ?_⟩
  · rw [hretired.messages]
    decide +kernel
  · exact hretired.queued _ (List.mem_cons_self) (by decide +kernel) _ (by decide +kernel)

end Transaction

end RapidInbox

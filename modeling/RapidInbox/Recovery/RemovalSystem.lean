import RapidInbox.Recovery.AttachmentSystem
import RapidInbox.Store.Retention
import RapidInbox.Store.RetiredReceipts

/-!
# Removed mail and the recovery

Retention (`runtime.py:436-486, 874-977, 1749-1872`) and the recovery passes (`recovery.py:163-178`)
hold one lock in turn.  Each transaction and each file that is unlinked is a step of its own; the holder
may end at any of them, by a crash or by what a step raises.
-/

namespace RapidInbox

/-- `storage.manifest_path` of a receipt. -/
def RecoveryManifest.path (f : RecoveryManifest) : Text := manifestPath f.messageId f.receivedAt

/-- Who holds `_mail_store_lock`, and where it is. -/
inductive StoreLock where
  | free
  /-- Retention has its snapshot. -/
  | expiring (now : Timestamp) (batch : List RetentionEntry)
  /-- Its transaction has committed. -/
  | expired
  /-- `_drain_file_gc` has these paths left, and has found those gone. -/
  | collecting (due deleted : List Text)
  /-- A pass has read these manifests, and found the raw files of those. -/
  | recovering (unchecked held : List RecoveryManifest)

/-- What a pass has in its hands. -/
def StoreLock.hands : StoreLock → List RecoveryManifest
  | .recovering unchecked held => unchecked ++ held
  | _ => []

/-- The ids of a snapshot are those of its messages still. -/
def StoreLock.Names (lock : StoreLock) (db : Db) : Prop :=
  match lock with
  | .expiring _ batch => db.NamesMessages batch
  | _ => True

instance (db : Db) : (lock : StoreLock) → Decidable (lock.Names db)
  | .expiring _ batch => inferInstanceAs (Decidable (∀ e ∈ batch, ∀ d ∈ db.deliveries,
      d.id = e.id → d.messageId = e.messageId))
  | .free | .expired | .collecting _ _ | .recovering _ _ => isTrue trivial

/-- The store, the manifests and the raw files below the storage root, and the lock.  `expired` lists
    what retention has removed, with the time of receipt. -/
structure RemovalState where
  db : Db
  manifests : List RecoveryManifest
  rawFiles : List Text
  lock : StoreLock
  expired : List (Text × Timestamp)

/-- An unlink reports that the file is gone, or it raises, before or behind the system call. -/
inductive UnlinkOutcome where
  | deleted
  | raised (gone : Bool)
  deriving DecidableEq, Repr

inductive RemovalAction where
  | beginRetention (now : Timestamp) (limit : Nat)
  /-- `_expire_delivery_batch`; `fault` is what its statements raise. -/
  | expire (fault : Nat → Option DbError) (refreshedAt cutoff : Timestamp) (limit : Nat)
  /-- `_load_due_file_gc_tasks`, whatever is due. -/
  | loadDue (paths : List Text)
  /-- The next path of `_delete_gc_paths`. -/
  | unlink (outcome : UnlinkOutcome)
  | applyOutcomes
  | beginPass
  /-- `_read_manifest`; which manifests are selected is left open. -/
  | read (manifest : RecoveryManifest)
  /-- `_validate_raw_artifact` -/
  | validate (i : Nat)
  | replay (i : Nat) (deliveryIds : Nat → Text)
  /-- The holder of the lock is done, has raised, or has crashed. -/
  | release
  /-- A manifest and its raw file are written. -/
  | arrive (manifest : RecoveryManifest)
  | other (w : MailWrite)

namespace RemovalState

/-- Every receipt that may be replayed, now or later. -/
def receipts (s : RemovalState) : List RecoveryManifest := s.manifests ++ s.lock.hands

/-- A message has a row. -/
def Present (s : RemovalState) (messageId : Text) : Prop := ∃ m ∈ s.db.messages, m.id = messageId

/-- The file of a path is gone. -/
def dropFile (s : RemovalState) (path : Text) : RemovalState :=
  { s with
    manifests := s.manifests.filter fun f => f.path ≠ path
    rawFiles := s.rawFiles.filter (· ≠ path) }

/-- A receipt that the program may write: it is of no message that was removed, and a message has one
    time of receipt. -/
def Admits (s : RemovalState) (f : RecoveryManifest) : Prop :=
  f.messageId ∉ s.expired.map Prod.fst ∧
    (∀ g ∈ s.receipts, g.messageId = f.messageId → g.receivedAt = f.receivedAt) ∧
    ∀ m ∈ s.db.messages, m.id = f.messageId → m.receivedAt = f.receivedAt

instance (s : RemovalState) (f : RecoveryManifest) : Decidable (s.Admits f) :=
  inferInstanceAs (Decidable (_ ∧ _ ∧ _))

/-- A message that another write may store: it was there, or it was never removed and its receipts
    have its time. -/
def Stores (s : RemovalState) (m : MessageRow) : Prop :=
  (∃ old ∈ s.db.messages, old.id = m.id ∧ old.receivedAt = m.receivedAt) ∨
    (m.id ∉ s.expired.map Prod.fst ∧ ∀ f ∈ s.receipts, f.messageId = m.id → f.receivedAt = m.receivedAt)

instance (s : RemovalState) (m : MessageRow) : Decidable (s.Stores m) :=
  inferInstanceAs (Decidable (_ ∨ _))

/-- Another write stores no message that was removed, takes no task of the file collector away, and
    gives no id of a snapshot to a delivery of another message. -/
def Allows (s : RemovalState) (db : Db) : Prop :=
  (∀ m ∈ db.messages, s.Stores m) ∧ (∀ path ∈ s.db.fileGcTasks, path ∈ db.fileGcTasks) ∧
    s.lock.Names db

instance (s : RemovalState) (db : Db) : Decidable (s.Allows db) :=
  inferInstanceAs (Decidable (_ ∧ _ ∧ _))

end RemovalState

namespace RemovalSystem

open RemovalState

/-- The messages of the first database that the second does not have. -/
def removedRows (db db' : Db) : List (Text × Timestamp) :=
  (db.messages.filter fun m => decide (∀ m' ∈ db'.messages, m'.id ≠ m.id)).map fun m =>
    (m.id, m.receivedAt)

section
variable (E : StoreEnv)

/-- One step of retention. -/
def retentionStep (s : RemovalState) : RemovalAction → Option RemovalState
  | .beginRetention now limit =>
    match s.lock with
    | .free => some { s with lock := .expiring now (s.db.expirationBatchSnapshot now limit) }
    | _ => none
  | .expire fault refreshedAt cutoff limit =>
    match s.lock with
    | .expiring now batch =>
      match expireTransaction fault now refreshedAt cutoff limit batch ⟨s.db, [], []⟩ with
      | .ok c =>
        some { s with
          db := c.db
          lock := .expired
          expired := s.expired ++ removedRows s.db c.db }
      | .error _ => some { s with lock := .free }
    | _ => none
  | .loadDue paths =>
    match s.lock with
    | .expired =>
      if ∀ path ∈ paths, path ∈ s.db.fileGcTasks then
        some { s with lock := .collecting paths [] }
      else none
    | _ => none
  | .unlink outcome =>
    match s.lock with
    | .collecting (path :: due) deleted =>
      match outcome with
      | .deleted => some { s.dropFile path with lock := .collecting due (path :: deleted) }
      | .raised gone =>
        some { (if gone then s.dropFile path else s) with lock := .collecting due deleted }
    | _ => none
  | .applyOutcomes =>
    match s.lock with
    | .collecting [] deleted =>
      some { s with
        db := s.db.write E (.applyGcOutcomes deleted)
        lock := .free }
    | _ => none
  | _ => none

/-- One step of a recovery pass. -/
def recoveryStep (s : RemovalState) : RemovalAction → Option RemovalState
  | .beginPass =>
    match s.lock with
    | .free => some { s with lock := .recovering [] [] }
    | _ => none
  | .read f =>
    match s.lock with
    | .recovering unchecked held =>
      if f ∈ s.manifests then some { s with lock := .recovering (f :: unchecked) held } else none
    | _ => none
  | .validate i =>
    match s.lock with
    | .recovering unchecked held =>
      match unchecked[i]? with
      | some f =>
        if f.rawPath ∈ s.rawFiles then
          some { s with lock := .recovering (unchecked.eraseIdx i) (f :: held) }
        else none
      | none => none
    | _ => none
  | .replay i deliveryIds =>
    match s.lock with
    | .recovering unchecked held =>
      held[i]?.map fun f =>
        { s with
          db := s.db.write E (.store (.recover f deliveryIds))
          lock := .recovering unchecked (held.eraseIdx i) }
    | _ => none
  | _ => none

/-- One step of the system. -/
def step (s : RemovalState) (a : RemovalAction) : Option RemovalState :=
  match a with
  | .beginPass | .read _ | .validate _ | .replay _ _ => recoveryStep E s a
  | .release => some { s with lock := .free }
  | .arrive f =>
    if s.Admits f then
      some { s with
        manifests := f :: s.manifests.filter fun g => g.path ≠ f.path
        rawFiles := f.rawPath :: s.rawFiles }
    else none
  | .other w =>
    let db := s.db.write E w
    if s.Allows db then some { s with db := db } else none
  | _ => retentionStep E s a

end

/-- A store and a spool in which a message has one time of receipt, and nothing was removed yet. -/
structure Initial (s : RemovalState) : Prop where
  consistent : s.db.Consistent
  receipts : ∀ f ∈ s.manifests, ∀ g ∈ s.manifests, f.messageId = g.messageId →
    f.receivedAt = g.receivedAt
  rows : ∀ f ∈ s.manifests, ∀ m ∈ s.db.messages, m.id = f.messageId → m.receivedAt = f.receivedAt
  lock : s.lock = .free
  expired : s.expired = []

end RemovalSystem
end RapidInbox

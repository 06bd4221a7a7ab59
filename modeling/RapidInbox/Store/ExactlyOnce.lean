import RapidInbox.Store.Replay

/-!
# One message, two writers

The daemon may commit a job any number of times, alone or in batches, and the service may replay its
manifest any number of times, in any order.  While the domain table stays as it was when the message
was accepted, the message is stored once.
-/

namespace RapidInbox

open Table

namespace BatchWriter

open Db

variable {A : AddressOps} {db db' : Db} {job : MailJob}

/-- The other jobs of a batch leave the deliveries of a job alone. -/
def Spares (A : AddressOps) (job : MailJob) : Db → List (MailJob × ParseResult) → Prop
  | _, [] => True
  | db, (other, result) :: rest =>
    (other.messageId = job.messageId → other = job) ∧
      match storeJob A db other result with
      | .error _ => True
      | .ok db' =>
        (other.messageId ≠ job.messageId → db.LeavesAlone job.messageId db') ∧
          Spares A job db' rest

instance (messageId : Text) (db db' : Db) : Decidable (db.LeavesAlone messageId db') :=
  decidable_of_iff
    ((db'.deliveries.filter (fun d => d.messageId = messageId) =
        db.deliveries.filter fun d => d.messageId = messageId) ∧
      ∀ d ∈ db.deliveries, d.messageId = messageId → ∀ b ∈ db.mailboxes, b.id = d.mailboxId →
        ∃ b' ∈ db'.mailboxes, b'.id = d.mailboxId ∧ b'.addressCanonical = b.addressCanonical)
    ⟨fun h => ⟨h.1, h.2⟩, fun h => ⟨h.1, h.2⟩⟩

instance decidableSpares (A : AddressOps) (job : MailJob) :
    (db : Db) → (jobs : List (MailJob × ParseResult)) → Decidable (Spares A job db jobs)
  | _, [] => .isTrue trivial
  | db, (other, result) :: rest =>
    match h : storeJob A db other result with
    | .error e => decidable_of_iff (other.messageId = job.messageId → other = job) (by
        simp [Spares, h])
    | .ok db' =>
      have := decidableSpares A job db' rest
      decidable_of_iff ((other.messageId = job.messageId → other = job) ∧
        (other.messageId ≠ job.messageId → db.LeavesAlone job.messageId db') ∧
          Spares A job db' rest) (by simp [Spares, h])

end BatchWriter

/-- A commit of a batch, or a replay of the manifest of a job. -/
def StoreOp.Delivers (E : StoreEnv) (job : MailJob) (db : Db) : StoreOp → Prop
  | .commit jobs => BatchWriter.Spares (cppAddressOps E.cpp) job db jobs
  | .recover f deliveryIds => f.Describes job ∧ db.FreshIds job deliveryIds
  | _ => False

/-- The operations that store a job when they succeed. -/
def StoreOp.Stores (job : MailJob) : StoreOp → Prop
  | .commit jobs => ∃ x ∈ jobs, x.1 = job
  | .recover f _ => f.Describes job
  | _ => False

/-- The batches of an operation hold the job alone. -/
def StoreOp.Alone (job : MailJob) : StoreOp → Prop
  | .commit jobs => ∀ x ∈ jobs, x.1 = job
  | _ => True

/-- The files of a message are not queued for deletion. -/
def Db.KeepsFiles (db : Db) (job : MailJob) : Prop :=
  ∀ path ∈ db.fileGcTasks, path ≠ job.rawPath ∧ path ≠ manifestPath job.messageId job.receivedAt

/-- What holds in every state of a history of one job. -/
structure OnceInvariant (E : StoreEnv) (job : MailJob) (start db : Db) : Prop where
  consistent : db.Consistent
  summaries : db.SummariesExact
  domains : db.domains = start.domains
  fileGcTasks : db.fileGcTasks = start.fileGcTasks
  landing : (∃ m ∈ db.messages, m.id = job.messageId) → Landing job job.recipients db
  messages : ∀ m ∈ start.messages, m ∈ db.messages
  counted : Db.Counted start db

/-- The assumptions on a job: the domain table is the one it was accepted under, and the two
    languages read its recipients alike. -/
structure Accepted (E : StoreEnv) (job : MailJob) (start : Db) : Prop where
  roots : start.RootsNormalized
  current : ∀ r ∈ job.recipients, r.Current (cppAddressOps E.cpp) start
  agree : ∀ r ∈ job.recipients, (cppAddressOps E.cpp).AgreeOn (pyAddressOps E.py) r.rcptTo
  files : start.KeepsFiles job

namespace OnceInvariant

variable {E : StoreEnv} {job : MailJob} {start db db' : Db}

theorem roots (h : OnceInvariant E job start db) (hjob : Accepted E job start) :
    db.RootsNormalized := by
  unfold Db.RootsNormalized
  rw [h.domains]
  exact hjob.roots

theorem current (h : OnceInvariant E job start db) (hjob : Accepted E job start) :
    ∀ r ∈ job.recipients, r.Current (cppAddressOps E.cpp) db :=
  fun r hr => (hjob.current r hr).congr h.domains

theorem not_retired (h : OnceInvariant E job start db) (hjob : Accepted E job start)
    {f : RecoveryManifest} (hf : f.Describes job) : db.isRetired f = false := by
  unfold Db.isRetired
  rw [List.any_eq_false]
  intro path hpath hcond
  rw [h.fileGcTasks] at hpath
  rw [hf.rawPath, hf.messageId, hf.receivedAt, Bool.or_eq_true, decide_eq_true_iff,
    decide_eq_true_iff] at hcond
  rcases hcond with heq | heq
  · exact (hjob.files path hpath).1 heq
  · exact (hjob.files path hpath).2 heq

/-- One job of a batch. -/
theorem storeJob (h : OnceInvariant E job start db) (hjob : Accepted E job start)
    {other : MailJob} {result : ParseResult} (hother : other.messageId = job.messageId → other = job)
    (halone : other.messageId ≠ job.messageId → db.LeavesAlone job.messageId db')
    (hok : BatchWriter.storeJob (cppAddressOps E.cpp) db other result = .ok db') :
    OnceInvariant E job start db' := by
  have hlawful := cppAddressOps_lawful E.cpp
  have hedits := BatchWriter.storeJob_edits h.consistent rfl (fun _ r hr => hr) (fun _ => True) trivial
    (fun _ _ => trivial) hok
  have hstaged := BatchWriter.storeJob_staged h.consistent hok
  have hexact := BatchWriter.storeJob_exact h.consistent (Db.summariesExact_iff.mp h.summaries) hok
  refine ⟨Edits.consistent h.consistent hedits.1, Db.summariesExact_iff.mpr hexact,
    hedits.2.1.trans h.domains, ?_, ?_, fun m hm => hedits.2.2 m (h.messages m hm),
    h.counted.trans (BatchWriter.storeJob_counted h.consistent hok)⟩
  · obtain ⟨-, rfl⟩ | ⟨-, staged, stored, n, hstage, hloop, rfl⟩ := hstaged
    · exact h.fileGcTasks
    · obtain ⟨metrics, hmetric⟩ := BatchWriter.upsertMetric_eq stored
        (Db.metricBucketTs other.receivedAt) 1 n (BatchWriter.parseFailures result)
      rw [hmetric]
      exact ((BatchWriter.storeRecipients_mailOnly hstage.consistent hloop).fileGcTasks.trans
        hstage.fileGcTasks).trans h.fileGcTasks
  · intro hstored
    by_cases hsame : other.messageId = job.messageId
    · obtain rfl := hother hsame
      by_cases hnew : ∃ m ∈ db.messages, m.id = other.messageId
      · obtain ⟨-, rfl⟩ | ⟨hfresh, -⟩ := hstaged
        · exact h.landing hnew
        · obtain ⟨m, hm, hid⟩ := hnew
          exact absurd hid (hfresh m hm)
      · push Not at hnew
        exact BatchWriter.storeJob_landing hlawful h.consistent (h.roots hjob) (h.current hjob) hnew
          hok
    · -- the message was there before the other job
      refine (h.landing ?_).leavesAlone (halone hsame)
      obtain ⟨m, hm, hid⟩ := hstored
      obtain ⟨-, rfl⟩ | ⟨-, staged, stored, n, hstage, hloop, rfl⟩ := hstaged
      · exact ⟨m, hm, hid⟩
      · obtain ⟨metrics, hmetric⟩ := BatchWriter.upsertMetric_eq stored
          (Db.metricBucketTs other.receivedAt) 1 n (BatchWriter.parseFailures result)
        rw [hmetric] at hm
        change m ∈ stored.messages at hm
        rw [(BatchWriter.storeRecipients_mailOnly hstage.consistent hloop).messages,
          hstage.messages] at hm
        rcases List.mem_append.mp hm with hm | hm
        · exact ⟨m, hm, hid⟩
        · rw [List.mem_singleton.mp hm] at hid
          exact absurd hid hsame

theorem writeSqliteRecords (h : OnceInvariant E job start db) (hjob : Accepted E job start)
    {jobs : List (MailJob × ParseResult)}
    (hspares : BatchWriter.Spares (cppAddressOps E.cpp) job db jobs)
    (hok : BatchWriter.writeSqliteRecords (cppAddressOps E.cpp) db jobs = .ok db') :
    OnceInvariant E job start db' := by
  induction jobs generalizing db with
  | nil =>
    cases hok
    exact h
  | cons x rest ih =>
    obtain ⟨other, result⟩ := x
    obtain ⟨hother, hspares⟩ := hspares
    unfold BatchWriter.writeSqliteRecords at hok
    split at hok
    · cases hok
    · rename_i db₁ hone
      rw [hone] at hspares
      exact ih (h.storeJob hjob hother hspares.1 hone) hspares.2 hok

theorem applyRecoveryManifest (h : OnceInvariant E job start db) (hjob : Accepted E job start)
    {f : RecoveryManifest} {deliveryIds : Nat → Text} (hf : f.Describes job)
    (hids : db.FreshIds job deliveryIds)
    (hok : db.applyRecoveryManifest (pyAddressOps E.py) f deliveryIds = .ok db') :
    OnceInvariant E job start db' := by
  have hreplayed := Db.applyRecoveryManifest_replayed (cppAddressOps_lawful E.cpp)
    (pyAddressOps_lawful E.py) h.consistent (h.roots hjob) hf (h.current hjob) hjob.agree h.landing
    (h.not_retired hjob hf) hids hok
  have hexact := Db.applyRecoveryManifest_exact (pyAddressOps_lawful E.py) h.consistent
    (Db.summariesExact_iff.mp h.summaries) hok
  refine ⟨hreplayed.consistent, Db.summariesExact_iff.mpr hexact,
    hreplayed.domains.trans h.domains, hreplayed.fileGcTasks.trans h.fileGcTasks,
    fun _ => hreplayed.landing, ?_, h.counted.trans hreplayed.counted⟩
  intro m hm
  rcases hreplayed.messages with heq | ⟨-, row, -, -, heq⟩
  · rw [heq]
    exact h.messages m hm
  · rw [heq]
    exact List.mem_append_left _ (h.messages m hm)

/-- One operation. -/
theorem exec (h : OnceInvariant E job start db) (hjob : Accepted E job start) {op : StoreOp}
    (hop : op.Delivers E job db) : OnceInvariant E job start (db.exec E op) := by
  unfold Db.exec
  split
  · rename_i db' hok
    cases op with
    | commit jobs => exact h.writeSqliteRecords hjob hop hok
    | recover f deliveryIds => exact h.applyRecoveryManifest hjob hop.1 hop.2 hok
    | _ => exact hop.elim
  · exact h

theorem run (h : OnceInvariant E job start db) (hjob : Accepted E job start) {ops : List StoreOp}
    (hops : Db.Throughout E (fun db op => op.Delivers E job db) db ops) :
    OnceInvariant E job start (db.run E ops) := by
  induction ops generalizing db with
  | nil => exact h
  | cons op ops ih => exact ih (h.exec hjob hops.1) hops.2

end OnceInvariant

/-! ## The message is stored -/

namespace BatchWriter

variable {A : AddressOps} {db db' : Db} {job : MailJob}

theorem storeJob_message (hdb : db.Consistent) {result : ParseResult}
    (h : storeJob A db job result = .ok db') : ∃ m ∈ db'.messages, m.id = job.messageId := by
  obtain ⟨hfound, rfl⟩ | ⟨-, staged, stored, n, hstage, hloop, rfl⟩ := storeJob_staged hdb h
  · exact hfound
  · obtain ⟨metrics, hmetric⟩ := upsertMetric_eq stored (Db.metricBucketTs job.receivedAt) 1 n
      (parseFailures result)
    refine ⟨messageRow job result, ?_, rfl⟩
    rw [hmetric]
    change messageRow job result ∈ stored.messages
    rw [(storeRecipients_mailOnly hstage.consistent hloop).messages, hstage.messages]
    exact List.mem_append_right _ (List.mem_singleton.mpr rfl)

theorem writeSqliteRecords_messages (hdb : db.Consistent) {jobs : List (MailJob × ParseResult)}
    (h : writeSqliteRecords A db jobs = .ok db') :
    (∀ m ∈ db.messages, m ∈ db'.messages) ∧
      ∀ x ∈ jobs, ∃ m ∈ db'.messages, m.id = x.1.messageId := by
  induction jobs generalizing db with
  | nil =>
    cases h
    exact ⟨fun _ => id, fun x hx => absurd hx List.not_mem_nil⟩
  | cons x rest ih =>
    unfold writeSqliteRecords at h
    split at h
    · cases h
    · rename_i db₁ hone
      obtain ⟨hedits, -, hkept⟩ := storeJob_edits hdb rfl (fun _ r hr => hr)
        (fun _ => True) trivial (fun _ _ => trivial) hone
      obtain ⟨hkept', hrest⟩ := ih (Edits.consistent hdb hedits) h
      refine ⟨fun m hm => hkept' m (hkept m hm), ?_⟩
      intro y hy
      rcases List.mem_cons.mp hy with rfl | hy
      · obtain ⟨m, hm, hid⟩ := storeJob_message hdb hone
        exact ⟨m, hkept' m hm, hid⟩
      · exact hrest y hy

end BatchWriter

section Stored

variable {E : StoreEnv} {job : MailJob} {start db db' : Db}

/-- An operation that stores the job does so if it succeeds. -/
theorem OnceInvariant.stores (h : OnceInvariant E job start db) (hjob : Accepted E job start)
    {op : StoreOp} (hop : op.Delivers E job db) (hstores : op.Stores job)
    (hok : op.transaction E db = .ok db') : ∃ m ∈ db'.messages, m.id = job.messageId := by
  cases op with
  | commit jobs =>
    obtain ⟨x, hx, rfl⟩ := hstores
    exact (BatchWriter.writeSqliteRecords_messages h.consistent hok).2 x hx
  | recover f deliveryIds =>
    exact (Db.applyRecoveryManifest_replayed (cppAddressOps_lawful E.cpp)
      (pyAddressOps_lawful E.py) h.consistent (h.roots hjob) hop.1 (h.current hjob) hjob.agree
      h.landing (h.not_retired hjob hop.1) hop.2 hok).message
  | _ => exact hop.elim

theorem Db.Throughout.append {P : Db → StoreOp → Prop} {before after : List StoreOp}
    (h : Db.Throughout E P db (before ++ after)) :
    Db.Throughout E P db before ∧ Db.Throughout E P (db.run E before) after := by
  induction before generalizing db with
  | nil => exact ⟨trivial, h⟩
  | cons op before ih =>
    obtain ⟨hop, hrest⟩ := h
    obtain ⟨hbefore, hafter⟩ := ih hrest
    exact ⟨⟨hop, hbefore⟩, hafter⟩

/-- Some operation of a history that stores the job has succeeded. -/
def SomeStored (E : StoreEnv) (job : MailJob) (start : Db) (ops : List StoreOp) : Prop :=
  ∃ before op after, ops = before ++ op :: after ∧ op.Stores job ∧
    ∃ db', op.transaction E (start.run E before) = .ok db'

theorem OnceInvariant.initial (hstart : start.Consistent) (hexact : start.SummariesExact)
    (hnew : ∀ m ∈ start.messages, m.id ≠ job.messageId) : OnceInvariant E job start start where
  consistent := hstart
  summaries := hexact
  domains := rfl
  fileGcTasks := rfl
  landing := fun ⟨m, hm, hid⟩ => absurd hid (hnew m hm)
  messages := fun _ => id
  counted := .refl start

/-- Once the job is stored, it stays stored. -/
theorem SomeStored.message (h : OnceInvariant E job start start) (hjob : Accepted E job start)
    {ops : List StoreOp} (hops : Db.Throughout E (fun db op => op.Delivers E job db) start ops)
    (hstored : SomeStored E job start ops) :
    ∃ m ∈ (start.run E ops).messages, m.id = job.messageId := by
  obtain ⟨before, op, after, rfl, hstores, db', hok⟩ := hstored
  obtain ⟨hbefore, hop, hafter⟩ := hops.append
  have hmid := h.run hjob hbefore
  have hexec : (start.run E before).exec E op = db' := by
    unfold Db.exec
    rw [hok]
  have hnext := hmid.exec hjob hop
  rw [hexec] at hnext hafter
  obtain ⟨m, hm, hid⟩ := hmid.stores hjob hop hstores hok
  -- the rest of the history starts from the state with the message
  have hjob' : Accepted E job db' :=
    ⟨hnext.roots hjob, hnext.current hjob, hjob.agree, by
      unfold Db.KeepsFiles
      rw [hnext.fileGcTasks]
      exact hjob.files⟩
  have hrest : OnceInvariant E job db' db' :=
    ⟨hnext.consistent, hnext.summaries, rfl, rfl, hnext.landing, fun _ => id, .refl db'⟩
  refine ⟨m, ?_, hid⟩
  rw [Db.run_append]
  change m ∈ (((start.run E before).exec E op).run E after).messages
  rw [hexec]
  exact (hrest.run hjob' hafter).messages m hm

end Stored

/-! ## Counts -/

/-- Whether a mailbox is that of a recipient. -/
def MailJob.goesTo (job : MailJob) (b : MailboxRow) : Bool :=
  job.recipients.any fun r => r.domainMatch.addressCanonical = b.addressCanonical

/-- The message of a job is stored exactly once, and counted once. -/
structure StoredOnce (job : MailJob) (start db : Db) : Prop where
  message : (db.messages.filter fun m => m.id = job.messageId).length = 1
  delivery : ∀ r ∈ job.recipients,
    ∃ b, db.mailboxAt? r.domainMatch.addressCanonical = some b ∧
      (db.deliveries.filter fun d =>
        (d.messageId, d.mailboxId) = (job.messageId, b.id)).length = 1
  placed : ∀ d ∈ db.deliveries, d.messageId = job.messageId → ∃ r ∈ job.recipients,
    ∃ b, db.mailboxAt? r.domainMatch.addressCanonical = some b ∧ b.id = d.mailboxId
  attachments : UniqueKey (fun a : AttachmentRow => (a.messageId, a.partIndex)) db.attachments
  counts : ∀ b ∈ db.mailboxes, db.hasIncompleteJob b.id = false →
    b.messageCount = ((db.activeIn b.id).filter fun d => d.messageId ≠ job.messageId).length +
      (job.goesTo b).toNat
  received : Db.Counted start db

namespace Landing

variable {job : MailJob} {db : Db}

/-- A mailbox has one delivery of the job if it is that of a recipient, and none otherwise. -/
theorem own_length (hdb : db.Consistent) (h : Landing job job.recipients db) {b : MailboxRow}
    (hb : b ∈ db.mailboxes) :
    (db.deliveries.filter fun d => (d.messageId, d.mailboxId) = (job.messageId, b.id)).length =
      (job.goesTo b).toNat := by
  rw [hdb.delivery_keys.filter_eq_toList]
  cases hgoes : job.goesTo b with
  | true =>
    obtain ⟨r, hr, haddr⟩ := List.any_eq_true.mp hgoes
    obtain ⟨d, hd, hmsg, domainId, hentry⟩ := h.covered r hr
    rw [of_decide_eq_true haddr] at hentry
    obtain ⟨hid, -⟩ := hentry.eq_of_address hdb (.of_mem hb)
    rw [hdb.delivery_keys.find?_eq_some hd (by rw [hmsg, hid])]
    rfl
  | false =>
    have hnone : db.deliveries.find? (fun d =>
        (d.messageId, d.mailboxId) = (job.messageId, b.id)) = none := by
      refine find?_key_none.mpr fun d hd heq => ?_
      rw [Prod.mk.injEq] at heq
      obtain ⟨r, hr, domainId, hentry⟩ := h.placed d hd heq.1
      obtain ⟨haddr, -⟩ := hentry.eq_of_id hdb (heq.2 ▸ Db.Entry.of_mem hb)
      rw [MailJob.goesTo, List.any_eq_false] at hgoes
      exact hgoes r hr (decide_eq_true haddr)
    rw [hnone]
    rfl

theorem activeIn_length (hdb : db.Consistent) (h : Landing job job.recipients db) {b : MailboxRow}
    (hb : b ∈ db.mailboxes) :
    (db.activeIn b.id).length =
      ((db.activeIn b.id).filter fun d => d.messageId ≠ job.messageId).length +
        (job.goesTo b).toNat := by
  rw [← h.own_length hdb hb]
  have hown : (db.deliveries.filter fun d => (d.messageId, d.mailboxId) = (job.messageId, b.id)) =
      (db.activeIn b.id).filter fun d => d.messageId = job.messageId := by
    unfold Db.activeIn
    rw [List.filter_filter]
    refine List.filter_congr fun d hd => ?_
    by_cases hmsg : d.messageId = job.messageId
    · simp [hmsg, h.active d hd hmsg]
    · simp [hmsg]
  rw [hown, Nat.add_comm]
  simpa using (db.activeIn b.id).length_eq_length_filter_add fun d => d.messageId = job.messageId

end Landing

theorem OnceInvariant.storedOnce {E : StoreEnv} {job : MailJob} {start db : Db}
    (h : OnceInvariant E job start db) (hstored : ∃ m ∈ db.messages, m.id = job.messageId) :
    StoredOnce job start db := by
  have hlanding := h.landing hstored
  refine ⟨?_, ?_, ?_, h.consistent.attachment_keys, ?_, h.counted⟩
  · obtain ⟨m, hm, hid⟩ := hstored
    rw [h.consistent.message_ids.filter_eq_toList, h.consistent.message_ids.find?_eq_some hm hid]
    rfl
  · intro r hr
    obtain ⟨d, hd, hmsg, domainId, hentry⟩ := hlanding.covered r hr
    obtain ⟨b, hb, hid, -⟩ := hentry.mailboxAt? h.consistent
    obtain ⟨hmem, haddr⟩ := find?_key hb
    refine ⟨b, hb, (hlanding.own_length h.consistent hmem).trans ?_⟩
    have hgoes : job.goesTo b = true :=
      List.any_eq_true.mpr ⟨r, hr, decide_eq_true haddr.symm⟩
    rw [hgoes]
    rfl
  · intro d hd hmsg
    obtain ⟨r, hr, domainId, hentry⟩ := hlanding.placed d hd hmsg
    obtain ⟨b, hb, hid, -⟩ := hentry.mailboxAt? h.consistent
    exact ⟨r, hr, b, hb, hid⟩
  · intro b hb hjob
    rw [(h.summaries b hb hjob).count]
    exact hlanding.activeIn_length h.consistent hb

/-! ## Histories of the job alone -/

/-- What a history that holds no other job adds. -/
structure AloneInvariant (job : MailJob) (start db : Db) : Prop where
  merges : start.merges <+: db.merges
  others : db.merges = start.merges →
    db.deliveries.filter (fun d => d.messageId ≠ job.messageId) =
      start.deliveries.filter fun d => d.messageId ≠ job.messageId
  messages : db.messages = start.messages ∨ ∃ row, row.id = job.messageId ∧
    row.receivedAt = job.receivedAt ∧ db.messages = start.messages ++ [row]

namespace AloneInvariant

variable {E : StoreEnv} {job : MailJob} {start db db' : Db}

/-- A step that adds the message if it is not there, and that touches other messages only by a
    merge. -/
theorem step (h : AloneInvariant job start db) (hmerges : db.merges <+: db'.merges)
    (hothers : db'.merges = db.merges →
      db'.deliveries.filter (fun d => d.messageId ≠ job.messageId) =
        db.deliveries.filter fun d => d.messageId ≠ job.messageId)
    (hmessages : db'.messages = db.messages ∨ (∀ m ∈ db.messages, m.id ≠ job.messageId) ∧
      ∃ row, row.id = job.messageId ∧ row.receivedAt = job.receivedAt ∧
        db'.messages = db.messages ++ [row]) : AloneInvariant job start db' where
  merges := h.merges.trans hmerges
  others := by
    intro heq
    rw [heq] at hmerges
    have hmid : db.merges = start.merges :=
      hmerges.eq_of_length (Nat.le_antisymm hmerges.length_le h.merges.length_le)
    rw [hothers (heq.trans hmid.symm), h.others hmid]
  messages := by
    rcases hmessages with heq | ⟨hnew, row, hid, hat, heq⟩
    · rw [heq]
      exact h.messages
    · rcases h.messages with hsame | ⟨row', hid', -, hsame⟩
      · rw [heq, hsame]
        exact .inr ⟨row, hid, hat, rfl⟩
      · rw [hsame] at hnew
        exact absurd hid' (hnew row' (List.mem_append_right _ (List.mem_singleton.mpr rfl)))

theorem storeJob (h : AloneInvariant job start db) (honce : OnceInvariant E job start db)
    (hjob : Accepted E job start) {result : ParseResult}
    (hok : BatchWriter.storeJob (cppAddressOps E.cpp) db job result = .ok db') :
    AloneInvariant job start db' := by
  refine h.step ?_ ?_ ?_
  · exact Edits.merges_prefix (BatchWriter.storeJob_edits honce.consistent rfl (fun _ r hr => hr)
      (fun _ => True) trivial (fun _ _ => trivial) hok).1
  · exact BatchWriter.storeJob_unmerged (cppAddressOps_lawful E.cpp) honce.consistent
      (honce.roots hjob) (fun r hr => (honce.current hjob r hr).hasDomain) hok
  · obtain ⟨-, rfl⟩ | ⟨hnew, staged, stored, n, hstage, hloop, rfl⟩ :=
      BatchWriter.storeJob_staged honce.consistent hok
    · exact .inl rfl
    · obtain ⟨metrics, hmetric⟩ := BatchWriter.upsertMetric_eq stored
        (Db.metricBucketTs job.receivedAt) 1 n (BatchWriter.parseFailures result)
      refine .inr ⟨hnew, BatchWriter.messageRow job result, rfl, rfl, ?_⟩
      rw [hmetric]
      exact (BatchWriter.storeRecipients_mailOnly hstage.consistent hloop).messages.trans
        hstage.messages

theorem writeSqliteRecords (h : AloneInvariant job start db) (honce : OnceInvariant E job start db)
    (hjob : Accepted E job start) {jobs : List (MailJob × ParseResult)}
    (halone : ∀ x ∈ jobs, x.1 = job)
    (hok : BatchWriter.writeSqliteRecords (cppAddressOps E.cpp) db jobs = .ok db') :
    AloneInvariant job start db' := by
  induction jobs generalizing db with
  | nil =>
    cases hok
    exact h
  | cons x rest ih =>
    obtain ⟨other, result⟩ := x
    obtain rfl : other = job := halone _ List.mem_cons_self
    unfold BatchWriter.writeSqliteRecords at hok
    split at hok
    · cases hok
    · rename_i db₁ hone
      refine ih (h.storeJob honce hjob hone) ?_ (fun x hx => halone x (List.mem_cons_of_mem _ hx)) hok
      exact honce.storeJob hjob (fun _ => rfl) (fun hne => absurd rfl hne) hone

theorem exec (h : AloneInvariant job start db) (honce : OnceInvariant E job start db)
    (hjob : Accepted E job start) {op : StoreOp} (hop : op.Delivers E job db)
    (halone : op.Alone job) : AloneInvariant job start (db.exec E op) := by
  have hmerges := Edits.merges_prefix (Db.exec_edits (E := E) honce.consistent op)
  revert hmerges
  unfold Db.exec
  split
  · rename_i db' hok
    intro hmerges
    cases op with
    | commit jobs => exact h.writeSqliteRecords honce hjob halone hok
    | recover f deliveryIds =>
      have hreplayed := Db.applyRecoveryManifest_replayed (cppAddressOps_lawful E.cpp)
        (pyAddressOps_lawful E.py) honce.consistent (honce.roots hjob) hop.1 (honce.current hjob)
        hjob.agree honce.landing (honce.not_retired hjob hop.1) hop.2 hok
      exact h.step hmerges (fun _ => hreplayed.others) hreplayed.messages
    | _ => exact hop.elim
  · intro _
    exact h

theorem run (h : AloneInvariant job start db) (honce : OnceInvariant E job start db)
    (hjob : Accepted E job start) {ops : List StoreOp}
    (hops : Db.Throughout E (fun db op => op.Delivers E job db) db ops)
    (halone : ∀ op ∈ ops, op.Alone job) : AloneInvariant job start (db.run E ops) := by
  induction ops generalizing db with
  | nil => exact h
  | cons op ops ih =>
    exact ih (h.exec honce hjob hops.1 (halone op List.mem_cons_self)) (honce.exec hjob hops.1)
      hops.2 fun op' hop' => halone op' (List.mem_cons_of_mem _ hop')

end AloneInvariant

/-- The counts are raised by one: in the mailboxes of the recipients, and in the bucket of the
    message. -/
structure RaisedByOne (job : MailJob) (start db : Db) : Prop where
  counts : ∀ b ∈ db.mailboxes, start.hasIncompleteJob b.id = false →
    db.hasIncompleteJob b.id = false →
    b.messageCount = ((start.mailbox? b.id).map MailboxRow.messageCount).getD 0 +
      (job.goesTo b).toNat
  received : ∀ bucket, db.received bucket =
    start.received bucket + if Db.metricBucketTs job.receivedAt = bucket then 1 else 0

/-- The count of a mailbox, which has no deliveries before it exists. -/
theorem Db.SummariesExact.count_eq {db : Db} (hdb : db.Consistent) (h : db.SummariesExact) {id : Nat}
    (hjob : db.hasIncompleteJob id = false) :
    ((db.mailbox? id).map MailboxRow.messageCount).getD 0 = (db.activeIn id).length := by
  cases hfind : db.mailbox? id with
  | some b =>
    obtain ⟨hb, rfl⟩ := find?_key hfind
    exact (h b hb hjob).count
  | none =>
    have hnil : db.activeIn id = [] := by
      unfold Db.activeIn
      rw [List.filter_eq_nil_iff]
      intro d hd hcond
      rw [Bool.and_eq_true, decide_eq_true_iff] at hcond
      obtain ⟨b, hb, hid⟩ := hdb.delivery_mailboxes d hd
      exact find?_key_none.mp hfind b hb (hid.trans hcond.1)
    rw [hnil]
    rfl

theorem StoredOnce.raisedByOne {job : MailJob} {start db : Db} (hstart : start.Consistent)
    (hexact : start.SummariesExact) (hnew : ∀ m ∈ start.messages, m.id ≠ job.messageId)
    (honce : StoredOnce job start db) (halone : AloneInvariant job start db)
    (hmerges : db.merges = start.merges) : RaisedByOne job start db where
  counts := by
    intro b hb hjob hjob'
    have hothers : (db.activeIn b.id).filter (fun d => d.messageId ≠ job.messageId) =
        start.activeIn b.id := by
      have hown : start.deliveries.filter (fun d => d.messageId ≠ job.messageId) =
          start.deliveries := by
        rw [List.filter_eq_self]
        intro d hd
        obtain ⟨m, hm, hid⟩ := hstart.delivery_messages d hd
        rw [decide_eq_true_iff]
        exact fun hmsg => hnew m hm (hid.trans hmsg)
      unfold Db.activeIn
      rw [List.filter_comm, halone.others hmerges, hown]
    rw [honce.counts b hb hjob', hothers, hexact.count_eq hstart hjob]
  received := by
    intro bucket
    have hcounted := honce.received bucket
    have hmessages : db.messagesIn bucket = start.messagesIn bucket +
        if Db.metricBucketTs job.receivedAt = bucket then 1 else 0 := by
      rcases halone.messages with heq | ⟨row, -, hat, heq⟩
      · -- the message would be stored already
        have hone := honce.message
        rw [heq, List.filter_eq_nil_iff.mpr] at hone
        · cases hone
        · intro m hm
          simpa using hnew m hm
      · unfold Db.messagesIn
        rw [heq, List.filter_append, List.length_append, ← hat]
        by_cases hbucket : Db.metricBucketTs row.receivedAt = bucket
        · simp [hbucket]
        · simp [hbucket]
    omega

/-- A job that the two writers deliver any number of times, in any order, is stored exactly once;
    and if no other job shares its batches and no mailbox is merged, the counts are raised by one. -/
theorem exactly_once {E : StoreEnv} {job : MailJob} {start : Db} {ops : List StoreOp}
    (hstart : start.Consistent) (hexact : start.SummariesExact) (hjob : Accepted E job start)
    (hnew : ∀ m ∈ start.messages, m.id ≠ job.messageId)
    (hops : Db.Throughout E (fun db op => op.Delivers E job db) start ops)
    (hstored : SomeStored E job start ops) :
    StoredOnce job start (start.run E ops) ∧
      ((∀ op ∈ ops, op.Alone job) → (start.run E ops).merges = start.merges →
        RaisedByOne job start (start.run E ops)) := by
  have hinitial : OnceInvariant E job start start := .initial hstart hexact hnew
  have honce := (hinitial.run hjob hops).storedOnce (hstored.message hinitial hjob hops)
  refine ⟨honce, fun halone hmerges => ?_⟩
  have hfirst : AloneInvariant job start start := ⟨List.prefix_rfl, fun _ => rfl, .inl rfl⟩
  exact honce.raisedByOne hstart hexact hnew (hfirst.run hinitial hjob hops halone) hmerges

/-- The manifest of a job, before it has been parsed. -/
def samplePending (job : MailJob) : RecoveryManifest :=
  { messageId := job.messageId
    smtpSessionId := some job.smtpSessionId
    envelopeFrom := some job.envelopeFrom
    receivedAt := job.receivedAt
    rawPath := job.rawPath
    rawSha256 := job.rawSha256
    rawSizeBytes := job.rawContent.length
    recipients := .receipts (job.recipients.map RecipientDelivery.receipt)
    parsed := .pending }

theorem samplePending_describes (job : MailJob) : (samplePending job).Describes job :=
  ⟨rfl, rfl, rfl, rfl⟩

/-- A message for two addresses, replayed, committed behind another message and replayed again. -/
def replayedHistory : List StoreOp :=
  [.recover (samplePending BatchWriter.twoRecipients.1) fun i => "x".toList ++ (toString i).toList,
   .commit [sampleJob "m2" 20 [sampleRecipient "d3" (sampleMatch 1 "example.com" "u" "example.com")],
     BatchWriter.twoRecipients],
   .recover (samplePending BatchWriter.twoRecipients.1) fun i => "y".toList ++ (toString i).toList]

theorem exactly_once_replayed :
    StoredOnce BatchWriter.twoRecipients.1 BatchWriter.managedDb
      (BatchWriter.managedDb.run .ascii replayedHistory) := by
  have hjob : Accepted .ascii BatchWriter.twoRecipients.1 BatchWriter.managedDb :=
    { roots := Db.rootsNormalized_of_fixed (cppAddressOps_lawful .asciiOnly) (by decide +kernel)
      current := by decide +kernel
      agree := fun r hr => ⟨by revert r; decide +kernel, fun _ _ _ _ => rfl⟩
      files := by unfold Db.KeepsFiles; decide +kernel }
  refine (exactly_once (Db.run_consistent Db.empty_consistent _) (by decide +kernel) hjob
    (by decide +kernel) ?_ ?_).1
  · refine ⟨⟨samplePending_describes _, ?_, ?_⟩, ?_, ⟨samplePending_describes _, ?_, ?_⟩, trivial⟩
    · decide +kernel
    · decide +kernel
    · change BatchWriter.Spares _ _ _ _
      decide +kernel
    · decide +kernel
    · decide +kernel
  · exact ⟨[], _, _, rfl, samplePending_describes _, BatchWriter.managedDb.exec .ascii
      (.recover (samplePending BatchWriter.twoRecipients.1) fun i =>
        "x".toList ++ (toString i).toList), by decide +kernel⟩

/-- A catch-all mailbox `u+t@example.com`, and a domain that drops the `+` part with a mailbox
    `u@example.com`. -/
def unmergedDb : Db :=
  Db.empty.run .ascii
    [.syncCatchAll true false false none 1000,
     .commit [sampleJob "m1" 10 [sampleRecipient "d1" (sampleMatch 1 "*" "u+t" "example.com")]],
     .createDomain "example.com".toList "r1".toList { DomainPayload.unset with
       plusAddressingMode := some .strip },
     .commit [sampleJob "m2" 20
       [sampleRecipient "d2" (sampleMatch 2 "example.com" "u" "example.com")]]]

/-- A message for `u+t@example.com` under the rules of the domain. -/
def mergingJob : MailJob × ParseResult :=
  sampleJob "m3" 30
    [{ sampleRecipient "d3" (sampleMatch 2 "example.com" "u" "example.com") with
       rcptTo := "u+t@example.com".toList
       domainMatch := { sampleMatch 2 "example.com" "u" "example.com" with
         localPart := "u+t".toList } }]

/-- One commit of the message raises the count of its mailbox by two: the catch-all mailbox is merged
    into it. -/
theorem exactly_once_merged :
    (∀ r ∈ mergingJob.1.recipients, r.Current (cppAddressOps .asciiOnly) unmergedDb) ∧
      (∀ m ∈ unmergedDb.messages, m.id ≠ mergingJob.1.messageId) ∧
      unmergedDb.SummariesExact ∧
      (∃ db', BatchWriter.writeSqliteRecords (cppAddressOps .asciiOnly) unmergedDb [mergingJob] =
        .ok db' ∧ db' = unmergedDb.run .ascii [.commit [mergingJob]]) ∧
      ∃ s ∈ unmergedDb.mailboxes, ∃ b ∈ (unmergedDb.run .ascii [.commit [mergingJob]]).mailboxes,
        s.id = b.id ∧ mergingJob.1.goesTo b = true ∧ b.messageCount = s.messageCount + 2 := by
  refine ⟨by decide +kernel, by decide +kernel, by decide +kernel, ⟨_, ?_, rfl⟩, by decide +kernel⟩
  decide +kernel

end RapidInbox

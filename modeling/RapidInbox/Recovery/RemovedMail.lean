import RapidInbox.Lib.Run
import RapidInbox.Recovery.RemovalSystem
import RapidInbox.Store.ExactlyOnce

/-!
# Expired mail does not come back

While a manifest of a removed message is on disk or in the hands of a pass, its path is a task of the
file collector, and a replay of it does nothing.
-/

namespace RapidInbox
namespace RemovalSystem

open RemovalState

variable {E : StoreEnv} {s s' : RemovalState}

/-! ## What a step is about -/

theorem mem_removedRows {db db' : Db} {x : Text × Timestamp} :
    x ∈ removedRows db db' ↔
      ∃ m ∈ db.messages, (m.id, m.receivedAt) = x ∧ ∀ m' ∈ db'.messages, m'.id ≠ m.id := by
  unfold removedRows
  rw [List.mem_map]
  constructor
  · rintro ⟨m, hm, hx⟩
    obtain ⟨hm, hgone⟩ := List.mem_filter.mp hm
    exact ⟨m, hm, hx, of_decide_eq_true hgone⟩
  · rintro ⟨m, hm, hx, hgone⟩
    exact ⟨m, List.mem_filter.mpr ⟨hm, decide_eq_true hgone⟩, hx⟩

/-- The files of a message are those of its row and its manifest. -/
theorem manifestPath_mem_messageFiles {db : Db} (m : MessageRow) :
    manifestPath m.id m.receivedAt ∈ db.messageFiles m := by
  unfold Db.messageFiles
  apply List.mem_append_left
  rw [List.mem_filter]
  exact ⟨List.mem_append_right _ (List.mem_singleton_self _), rfl⟩

/-- What a collector has found gone is no manifest of a message that was removed. -/
def Collected (s : RemovalState) : Prop :=
  match s.lock with
  | .collecting _ deleted =>
    ∀ x ∈ s.expired, ∀ f ∈ s.manifests, f.messageId = x.1 → f.path ∉ deleted
  | _ => True

/-- The manifests, the rows and the tasks agree on every message that was removed. -/
structure Sound (s : RemovalState) : Prop where
  consistent : s.db.Consistent
  receipts : ∀ f ∈ s.receipts, ∀ g ∈ s.receipts, f.messageId = g.messageId →
    f.receivedAt = g.receivedAt
  rows : ∀ f ∈ s.receipts, ∀ m ∈ s.db.messages, m.id = f.messageId → m.receivedAt = f.receivedAt
  absent : ∀ x ∈ s.expired, ¬s.Present x.1
  tombstones : ∀ x ∈ s.expired, ∀ f ∈ s.receipts, f.messageId = x.1 →
    f.receivedAt = x.2 ∧ f.path ∈ s.db.fileGcTasks
  names : s.lock.Names s.db
  collected : Collected s

theorem Sound.initial (h : Initial s) : Sound s := by
  have hheld : s.receipts = s.manifests := by
    unfold RemovalState.receipts
    rw [h.lock]
    exact List.append_nil _
  have hnone (x : Text × Timestamp) (hx : x ∈ s.expired) : False := by
    rw [h.expired] at hx
    exact List.not_mem_nil hx
  refine ⟨h.consistent, ?_, ?_, fun x hx => (hnone x hx).elim, fun x hx => (hnone x hx).elim, ?_, ?_⟩
  · rw [hheld]
    exact h.receipts
  · rw [hheld]
    exact h.rows
  · rw [h.lock]
    exact trivial
  · unfold Collected
    rw [h.lock]
    exact trivial

/-! ## What a step keeps -/

theorem mem_receipts {f : RecoveryManifest} : f ∈ s.receipts ↔ f ∈ s.manifests ∨ f ∈ s.lock.hands :=
  List.mem_append

theorem mem_hands {f : RecoveryManifest} {unchecked held : List RecoveryManifest}
    (hlock : s.lock = .recovering unchecked held) : f ∈ s.lock.hands ↔ f ∈ unchecked ∨ f ∈ held := by
  rw [hlock]
  exact List.mem_append

/-- A holder that has read nothing. -/
theorem receipts_of_manifests (hhands : s'.lock.hands = [])
    (hmanifests : ∀ f ∈ s'.manifests, f ∈ s.manifests) : ∀ f ∈ s'.receipts, f ∈ s.receipts := by
  intro f hf
  rw [mem_receipts, hhands] at hf
  exact mem_receipts.mpr (.inl (hmanifests f (hf.resolve_right List.not_mem_nil)))

theorem mem_dropFile {path : Text} {f : RecoveryManifest} (hf : f ∈ (s.dropFile path).manifests) :
    f ∈ s.manifests ∧ f.path ≠ path := by
  obtain ⟨hf, hne⟩ := List.mem_filter.mp hf
  exact ⟨hf, of_decide_eq_true hne⟩

/-- A message of the next state was there, or it is that of a receipt that no task has retired. -/
def Replayed (s : RemovalState) (m : MessageRow) : Prop :=
  ∃ f ∈ s.receipts, s.db.isRetired f = false ∧ m.id = f.messageId ∧ m.receivedAt = f.receivedAt

/-- No receipt is new; a message is an old one or a replayed one; and the tasks of the messages that
    were removed stay as long as their receipts do. -/
theorem Sound.next (h : Sound s) (hconsistent : s'.db.Consistent)
    (hreceipts : ∀ f ∈ s'.receipts, f ∈ s.receipts)
    (hmessages : ∀ m ∈ s'.db.messages, m ∈ s.db.messages ∨ Replayed s m)
    (hexpired : ∀ x ∈ s'.expired, x ∈ s.expired ∨ (¬s'.Present x.1 ∧ ∀ f ∈ s'.receipts,
      f.messageId = x.1 → f.receivedAt = x.2 ∧ f.path ∈ s'.db.fileGcTasks))
    (htasks : ∀ x ∈ s.expired, ∀ f ∈ s'.receipts, f.messageId = x.1 → f.path ∈ s.db.fileGcTasks →
      f.path ∈ s'.db.fileGcTasks)
    (hnames : s'.lock.Names s'.db) (hcollected : Collected s') : Sound s' := by
  refine ⟨hconsistent, fun f hf g hg => h.receipts f (hreceipts f hf) g (hreceipts g hg), ?_, ?_, ?_,
    hnames, hcollected⟩
  · intro g hg m hm hid
    rcases hmessages m hm with hm | ⟨f, hf, -, hmid, htime⟩
    · exact h.rows g (hreceipts g hg) m hm hid
    · exact htime.trans (h.receipts f hf g (hreceipts g hg) (hmid.symm.trans hid))
  · intro x hx
    rcases hexpired x hx with hx | ⟨habsent, -⟩
    · rintro ⟨m, hm, hid⟩
      rcases hmessages m hm with hm | ⟨f, hf, hretired, hmid, -⟩
      · exact h.absent x hx ⟨m, hm, hid⟩
      · have htask := (h.tombstones x hx f hf (hmid.symm.trans hid)).2
        apply List.any_eq_false.mp hretired f.path htask
        rw [Bool.or_eq_true]
        exact .inr (decide_eq_true rfl)
    · exact habsent
  · intro x hx f hf hid
    rcases hexpired x hx with hx | ⟨-, htombstone⟩
    · obtain ⟨htime, htask⟩ := h.tombstones x hx f (hreceipts f hf) hid
      exact ⟨htime, htasks x hx f hf hid htask⟩
    · exact htombstone f hf hid

/-- The store stays. -/
theorem Sound.forgets (h : Sound s) (hdb : s'.db = s.db) (hexpired : s'.expired = s.expired)
    (hreceipts : ∀ f ∈ s'.receipts, f ∈ s.receipts) (hnames : s'.lock.Names s.db)
    (hcollected : Collected s') : Sound s' := by
  apply h.next (hdb ▸ h.consistent) hreceipts _ _ _ (hdb ▸ hnames) hcollected
  · rw [hdb]
    exact fun m hm => .inl hm
  · rw [hexpired]
    exact fun x hx => .inl hx
  · rw [hdb]
    exact fun _ _ _ _ _ htask => htask

theorem Sound.release (h : Sound s) : Sound { s with lock := .free } :=
  h.forgets rfl rfl (receipts_of_manifests rfl fun _ hf => hf) trivial trivial

/-- A pass has in its hands what was on disk, or what it had. -/
theorem Sound.recovers (h : Sound s) {unchecked held unchecked' held' : List RecoveryManifest}
    (hlock : s.lock = .recovering unchecked held)
    (hkept : ∀ g, g ∈ unchecked' ∨ g ∈ held' → g ∈ s.manifests ∨ g ∈ unchecked ∨ g ∈ held) :
    Sound { s with lock := .recovering unchecked' held' } := by
  refine h.forgets rfl rfl (fun g hg => mem_receipts.mpr ?_) trivial trivial
  rw [mem_hands hlock]
  rcases mem_receipts.mp hg with hg | hg
  · exact .inl hg
  · exact hkept g ((mem_hands rfl).mp hg)

/-- What has been found gone by the collector. -/
theorem Sound.not_deleted (h : Sound s) {due deleted : List Text}
    (hlock : s.lock = .collecting due deleted) {x : Text × Timestamp} (hx : x ∈ s.expired)
    {f : RecoveryManifest} (hf : f ∈ s.manifests) (hid : f.messageId = x.1) : f.path ∉ deleted := by
  have hcollected := h.collected
  unfold Collected at hcollected
  rw [hlock] at hcollected
  exact hcollected x hx f hf hid

/-- A path that is reported gone is gone. -/
theorem Sound.unlink (h : Sound s) {path : Text} {due deleted : List Text}
    (hlock : s.lock = .collecting (path :: due) deleted) :
    Sound { s.dropFile path with lock := .collecting due (path :: deleted) } := by
  refine h.forgets rfl rfl (receipts_of_manifests rfl fun _ hf => (mem_dropFile hf).1) trivial ?_
  intro x hx f hf hid hmem
  obtain ⟨hf, hne⟩ := mem_dropFile hf
  rcases List.mem_cons.mp hmem with heq | hmem
  · exact hne heq
  · exact h.not_deleted hlock hx hf hid hmem

theorem Sound.unlinkRaises (h : Sound s) {path : Text} {due deleted : List Text}
    (hlock : s.lock = .collecting (path :: due) deleted) (gone : Bool) :
    Sound { (if gone then s.dropFile path else s) with lock := .collecting due deleted } := by
  cases gone with
  | false =>
    exact h.forgets rfl rfl (receipts_of_manifests rfl fun _ hf => hf) trivial
      fun x hx f hf hid => h.not_deleted hlock hx hf hid
  | true =>
    exact h.forgets rfl rfl (receipts_of_manifests rfl fun _ hf => (mem_dropFile hf).1) trivial
      fun x hx f hf hid => h.not_deleted hlock hx (mem_dropFile hf).1 hid

/-! ## The transactions -/

theorem Sound.expire (h : Sound s) {fault : Nat → Option DbError} {now refreshedAt cutoff : Timestamp}
    {limit : Nat} {batch : List RetentionEntry} {c : RetentionConnection}
    (hlock : s.lock = .expiring now batch)
    (hok : expireTransaction fault now refreshedAt cutoff limit batch ⟨s.db, [], []⟩ = .ok c) :
    Sound { s with db := c.db, lock := .expired, expired := s.expired ++ removedRows s.db c.db } := by
  have hresult : c.db = s.db.expireDeliveryBatch now refreshedAt cutoff limit batch := by
    rw [expireTransaction_ok hok]
    rfl
  have hnames : s.db.NamesMessages batch := by
    have hnames := h.names
    rw [hlock] at hnames
    exact hnames
  have hretired : s.db.Retired now batch c.db :=
    hresult ▸ Db.expireDeliveryBatch_retired h.consistent hnames
  have hedits : Edits (serviceRules (fun _ => True) fun _ => True) s.db c.db :=
    hresult ▸ Db.expireDeliveryBatch_edits
  have hkept (m : MessageRow) (hm : m ∈ c.db.messages) : m ∈ s.db.messages := by
    rw [hretired.messages] at hm
    exact List.mem_of_mem_filter hm
  have hreceipts : ∀ f ∈ RemovalState.receipts { s with
      db := c.db, lock := .expired, expired := s.expired ++ removedRows s.db c.db }, f ∈ s.receipts :=
    receipts_of_manifests rfl fun _ hf => hf
  refine h.next (Edits.consistent h.consistent hedits) hreceipts (fun m hm => .inl (hkept m hm)) ?_
    (fun _ _ _ _ _ htask => hretired.tasks _ htask) trivial trivial
  intro x hx
  rcases List.mem_append.mp hx with hx | hx
  · exact .inl hx
  · obtain ⟨m, hm, rfl, hgone⟩ := mem_removedRows.mp hx
    refine .inr ⟨fun ⟨m', hm', hid⟩ => hgone m' hm' hid, ?_⟩
    intro f hf hid
    have htime : m.receivedAt = f.receivedAt := h.rows f (hreceipts f hf) m hm hid.symm
    refine ⟨htime.symm, ?_⟩
    -- the row is gone, so that the message has lost its last delivery
    have hlast : s.db.losesLast now batch m.id = true := by
      by_contra hkeeps
      refine hgone m ?_ rfl
      rw [hretired.messages]
      exact List.mem_filter.mpr ⟨hm, by simpa using hkeeps⟩
    have hpath : f.path = manifestPath m.id m.receivedAt := by
      unfold RecoveryManifest.path
      rw [hid, htime]
    rw [hpath]
    exact hretired.queued m hm hlast _ (manifestPath_mem_messageFiles m)

theorem Sound.applyOutcomes (h : Sound s) {deleted : List Text}
    (hlock : s.lock = .collecting [] deleted) :
    Sound { s with db := s.db.write E (.applyGcOutcomes deleted), lock := .free } := by
  have hconsistent : (s.db.write E (.applyGcOutcomes deleted)).Consistent :=
    Db.write_consistent h.consistent _
  refine h.next hconsistent (receipts_of_manifests rfl fun _ hf => hf) (fun _ hm => .inl hm)
    (fun _ hx => .inl hx) ?_ trivial trivial
  intro x hx f hf hid htask
  have hf : f ∈ s.manifests := (mem_receipts.mp hf).resolve_right List.not_mem_nil
  exact List.mem_filter.mpr ⟨htask, decide_eq_true (h.not_deleted hlock hx hf hid)⟩

/-- A replay of a removed message does nothing: its manifest is a task. -/
theorem Sound.replay (h : Sound s) {unchecked held : List RecoveryManifest} {i : Nat}
    {f : RecoveryManifest} (hlock : s.lock = .recovering unchecked held) (hf : held[i]? = some f)
    (deliveryIds : Nat → Text) :
    Sound { s with
      db := s.db.write E (.store (.recover f deliveryIds))
      lock := .recovering unchecked (held.eraseIdx i) } := by
  have hconsistent : (s.db.write E (.store (.recover f deliveryIds))).Consistent :=
    Db.write_consistent h.consistent _
  have hhands (g : RecoveryManifest) (hg : g ∈ unchecked ∨ g ∈ held) : g ∈ s.receipts :=
    mem_receipts.mpr (.inr ((mem_hands hlock).mpr hg))
  have hreplays := Db.write_recover E s.db f deliveryIds
  refine h.next hconsistent ?_ ?_ (fun _ hx => .inl hx) ?_ trivial trivial
  · intro g hg
    rcases mem_receipts.mp hg with hg | hg
    · exact mem_receipts.mpr (.inl hg)
    · exact hhands g ((List.mem_append.mp hg).imp id List.mem_of_mem_eraseIdx)
  · intro m hm
    rcases hreplays.messages with hsame | ⟨hretired, session, hadded⟩
    · exact .inl (hsame ▸ hm)
    · rcases List.mem_append.mp (hadded ▸ hm : m ∈ s.db.messages ++ [f.messageRow session]) with hm | hm
      · exact .inl hm
      · rw [List.mem_singleton.mp hm]
        exact .inr ⟨f, hhands f (.inr (List.mem_of_getElem? hf)), hretired, rfl, rfl⟩
  · intro _ _ _ _ _ htask
    exact hreplays.tasks ▸ htask

/-! ## What others write -/

theorem Sound.arrive (h : Sound s) {f : RecoveryManifest} (hf : s.Admits f) :
    Sound { s with
      manifests := f :: s.manifests.filter fun g => g.path ≠ f.path
      rawFiles := f.rawPath :: s.rawFiles } := by
  obtain ⟨hexpired, hreceipts, hrows⟩ := hf
  have hcases (g : RecoveryManifest) (hg : g ∈ (f :: s.manifests.filter fun g => g.path ≠ f.path) ++
      s.lock.hands) : g = f ∨ g ∈ s.receipts := by
    rcases List.mem_append.mp hg with hg | hg
    · exact (List.mem_cons.mp hg).imp id fun hg => mem_receipts.mpr (.inl (List.mem_of_mem_filter hg))
    · exact .inr (mem_receipts.mpr (.inr hg))
  have hnew (x : Text × Timestamp) (hx : x ∈ s.expired) : f.messageId ≠ x.1 := by
    intro heq
    exact hexpired (heq ▸ List.mem_map_of_mem hx)
  refine ⟨h.consistent, ?_, ?_, h.absent, ?_, h.names, ?_⟩
  · intro g hg g' hg' hid
    rcases hcases g hg with rfl | hold
    · rcases hcases g' hg' with rfl | hold'
      · rfl
      · exact (hreceipts g' hold' hid.symm).symm
    · rcases hcases g' hg' with rfl | hold'
      · exact hreceipts g hold hid
      · exact h.receipts g hold g' hold' hid
  · intro g hg m hm hid
    rcases hcases g hg with rfl | hg
    · exact hrows m hm hid
    · exact h.rows g hg m hm hid
  · intro x hx g hg hid
    rcases hcases g hg with rfl | hg
    · exact absurd hid (hnew x hx)
    · exact h.tombstones x hx g hg hid
  · unfold Collected
    dsimp only
    split
    · rename_i due deleted hlock
      intro x hx g hg hid
      rcases List.mem_cons.mp hg with rfl | hg
      · exact absurd hid (hnew x hx)
      · exact h.not_deleted hlock hx (List.mem_of_mem_filter hg) hid
    · exact trivial

theorem Sound.other (h : Sound s) {w : MailWrite} (hw : s.Allows (s.db.write E w)) :
    Sound { s with db := s.db.write E w } := by
  obtain ⟨hstores, htasks, hnames⟩ := hw
  refine ⟨Db.write_consistent h.consistent w, h.receipts, ?_, ?_, ?_, hnames, h.collected⟩
  · intro f hf m hm hid
    rcases hstores m hm with ⟨old, hold, holdid, htime⟩ | ⟨-, hreceipts⟩
    · exact htime ▸ h.rows f hf old hold (holdid.trans hid)
    · exact (hreceipts f hf hid.symm).symm
  · rintro x hx ⟨m, hm, hid⟩
    rcases hstores m hm with ⟨old, hold, holdid, -⟩ | ⟨hnew, -⟩
    · exact h.absent x hx ⟨old, hold, holdid.trans hid⟩
    · exact hnew (hid ▸ List.mem_map_of_mem hx)
  · intro x hx f hf hid
    obtain ⟨htime, htask⟩ := h.tombstones x hx f hf hid
    exact ⟨htime, htasks _ htask⟩

/-! ## Runs -/

theorem Sound.step (h : Sound s) {a : RemovalAction} (hstep : step E s a = some s') : Sound s' := by
  have hkept : ∀ f ∈ s.manifests, f ∈ s.manifests := fun _ hf => hf
  cases a with
  | beginRetention now limit =>
    simp only [RemovalSystem.step, retentionStep] at hstep
    split at hstep <;> cases hstep
    exact h.forgets rfl rfl (receipts_of_manifests rfl hkept)
      (expirationBatchSnapshot_namesMessages h.consistent now limit) trivial
  | expire fault refreshedAt cutoff limit =>
    simp only [RemovalSystem.step, retentionStep] at hstep
    split at hstep
    · rename_i hlock
      split at hstep <;> cases hstep
      · exact h.expire hlock ‹_›
      · exact h.release
    · cases hstep
  | loadDue paths =>
    simp only [RemovalSystem.step, retentionStep] at hstep
    split at hstep
    · split at hstep <;> cases hstep
      exact h.forgets rfl rfl (receipts_of_manifests rfl hkept) trivial
        fun _ _ _ _ _ => List.not_mem_nil
    · cases hstep
  | unlink outcome =>
    simp only [RemovalSystem.step, retentionStep] at hstep
    split at hstep
    · cases outcome <;> cases hstep
      · exact h.unlink ‹_›
      · exact h.unlinkRaises ‹_› _
    · cases hstep
  | applyOutcomes =>
    simp only [RemovalSystem.step, retentionStep] at hstep
    split at hstep <;> cases hstep
    exact h.applyOutcomes ‹_›
  | beginPass =>
    simp only [RemovalSystem.step, recoveryStep] at hstep
    split at hstep <;> cases hstep
    exact h.forgets rfl rfl (receipts_of_manifests rfl hkept) trivial trivial
  | read f =>
    simp only [RemovalSystem.step, recoveryStep] at hstep
    split at hstep
    · rename_i hlock
      split at hstep <;> cases hstep
      refine h.recovers hlock fun g hg => ?_
      rcases hg with hg | hg
      · rcases List.mem_cons.mp hg with rfl | hg
        · exact .inl ‹_›
        · exact .inr (.inl hg)
      · exact .inr (.inr hg)
    · cases hstep
  | validate i =>
    simp only [RemovalSystem.step, recoveryStep] at hstep
    split at hstep
    · rename_i hlock
      split at hstep
      · rename_i hf
        split at hstep <;> cases hstep
        refine h.recovers hlock fun g hg => ?_
        rcases hg with hg | hg
        · exact .inr (.inl (List.mem_of_mem_eraseIdx hg))
        · rcases List.mem_cons.mp hg with rfl | hg
          · exact .inr (.inl (List.mem_of_getElem? hf))
          · exact .inr (.inr hg)
      · cases hstep
    · cases hstep
  | replay i deliveryIds =>
    simp only [RemovalSystem.step, recoveryStep] at hstep
    split at hstep
    · obtain ⟨f, hf, rfl⟩ := Option.map_eq_some_iff.mp hstep
      exact h.replay ‹_› hf deliveryIds
    · cases hstep
  | release =>
    cases hstep
    exact h.release
  | arrive f =>
    simp only [RemovalSystem.step] at hstep
    split at hstep <;> cases hstep
    exact h.arrive ‹_›
  | other w =>
    simp only [RemovalSystem.step] at hstep
    split at hstep <;> cases hstep
    exact h.other ‹_›

/-- However retention, the file collector and the recovery passes interleave, and wherever they end: a
    message that retention has removed is not stored again, and as long as its manifest is there, the
    path of the manifest is a task. -/
theorem expired_mail_not_revived (E : StoreEnv) {s s' : RemovalState} {actions : List RemovalAction}
    (hstart : Initial s) (hrun : Transition.run (step E) s actions = some s') :
    ∀ x ∈ s'.expired, ¬s'.Present x.1 ∧ ∀ f ∈ s'.manifests, f.messageId = x.1 →
      f.path = manifestPath x.1 x.2 ∧ manifestPath x.1 x.2 ∈ s'.db.fileGcTasks := by
  have hsound : Sound s' := Transition.run_invariant (fun _ _ _ h hstep => h.step hstep)
    (.initial hstart) hrun
  intro x hx
  refine ⟨hsound.absent x hx, ?_⟩
  intro f hf hid
  obtain ⟨htime, htask⟩ := hsound.tombstones x hx f (mem_receipts.mpr (.inl hf)) hid
  have hpath : f.path = manifestPath x.1 x.2 := by
    unfold RecoveryManifest.path
    rw [hid, htime]
  exact ⟨hpath, hpath ▸ htask⟩

/-- The receipt of the first message of `retentionStart`. -/
def removalReceipt : RecoveryManifest :=
  samplePending (sampleJob "m1" 10 [sampleRecipient "d1" (sampleMatch 1 "*" "u" "example.com")]).1

/-- Two messages, one of them due, whose manifest is still on disk. -/
def removalStart : RemovalState :=
  { db := Db.empty.run .ascii retentionStart
    manifests := [removalReceipt]
    rawFiles := [rawMessagePath "m1".toList 10]
    lock := .free
    expired := [] }

theorem removalStart_initial : Initial removalStart where
  consistent := Db.run_consistent Db.empty_consistent _
  receipts := by
    intro f hf g hg _
    rw [List.mem_singleton.mp hf, List.mem_singleton.mp hg]
  rows := by
    intro f hf
    rw [List.mem_singleton.mp hf]
    decide +kernel
  lock := rfl
  expired := rfl

/-- Neither file can be unlinked, and the pass behind it replays the manifest. -/
def stuckManifest : List RemovalAction :=
  [.beginRetention 30 10, .expire (fun _ => none) 31 0 10,
   .loadDue [manifestPath "m1".toList 10, rawMessagePath "m1".toList 10], .unlink (.raised false),
   .unlink (.raised false), .applyOutcomes, .beginPass, .read removalReceipt, .validate 0,
   .replay 0 (fun _ => "d9".toList), .release]

theorem stuckManifest_not_revived :
    ∃ s, Transition.run (step .ascii) removalStart stuckManifest = some s ∧
      s.expired = [("m1".toList, 10)] ∧ s.manifests.map RecoveryManifest.messageId = ["m1".toList] ∧
      removalReceipt.rawPath ∈ s.rawFiles ∧
      ¬s.Present "m1".toList ∧ manifestPath "m1".toList 10 ∈ s.db.fileGcTasks := by
  have hrun : (Transition.run (step .ascii) removalStart stuckManifest).map (fun s =>
      (s.expired, s.manifests.map RecoveryManifest.messageId, s.rawFiles)) =
      some ([("m1".toList, 10)], ["m1".toList], [removalReceipt.rawPath]) := by decide +kernel
  obtain ⟨s, hs, heq⟩ := Option.map_eq_some_iff.mp hrun
  simp only [Prod.mk.injEq] at heq
  obtain ⟨hexpired, hmanifests, hraw⟩ := heq
  have hkept := expired_mail_not_revived .ascii removalStart_initial hs
  rw [hexpired] at hkept
  obtain ⟨habsent, htask⟩ := hkept _ List.mem_cons_self
  obtain ⟨f, hf, hid⟩ := List.mem_map.mp (hmanifests ▸ List.mem_singleton_self "m1".toList)
  exact ⟨s, hs, hexpired, hmanifests, hraw ▸ List.mem_cons_self, habsent, (htask f hf hid).2⟩

end RemovalSystem
end RapidInbox

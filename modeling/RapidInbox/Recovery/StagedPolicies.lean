import RapidInbox.Lib.LastGreatest
import RapidInbox.Recovery.StagedReceipts

/-!
# The policy that is kept for a domain

The full scan keeps the policies in a table and the periodic scan in a dictionary.  Both keep, of
the snapshots that the receipts offer for a domain, the last of the greatest in recovery order.
-/

namespace RapidInbox.Recovery

open Table

variable {E : ScanEnvironment}

theorem tupleLe_total (a b : Nat × Nat) : tupleLe a b ∨ tupleLe b a := by
  unfold tupleLe
  omega

theorem tupleLe_trans {a b c : Nat × Nat} (h : tupleLe a b) (h' : tupleLe b c) : tupleLe a c := by
  unfold tupleLe at *
  omega

/-! ## The table -/

def DomainSnapshotRow.order (row : DomainSnapshotRow) : Nat × Nat :=
  (row.recoveryOrderNs, row.manifestMtimeNs)

/-- A row is not after another one. -/
def rowLe (a b : DomainSnapshotRow) : Prop := tupleLe a.order b.order

instance : DecidableRel rowLe := fun a b => inferInstanceAs (Decidable (tupleLe a.order b.order))

theorem supersedes_iff {excluded row : DomainSnapshotRow} :
    excluded.supersedes row = true ↔ rowLe row excluded := by
  simp only [DomainSnapshotRow.supersedes, rowLe, tupleLe, DomainSnapshotRow.order, Bool.or_eq_true,
    Bool.and_eq_true, decide_eq_true_eq]
  omega

theorem update_root (excluded row : DomainSnapshotRow) :
    (excluded.update row).rootDomainAscii = row.rootDomainAscii := by
  unfold DomainSnapshotRow.update
  split
  · rfl
  · rfl

/-- The row of a domain after an upsert. -/
theorem find?_upsertDomainSnapshot (rows : List DomainSnapshotRow) (excluded : DomainSnapshotRow)
    (root : PyStr) :
    (upsertDomainSnapshot rows excluded).find? (fun row => row.rootDomainAscii = root) =
      if excluded.rootDomainAscii = root then
        LastGreatest.keep rowLe (rows.find? fun row => row.rootDomainAscii = root) excluded
      else rows.find? fun row => row.rootDomainAscii = root := by
  rw [upsertDomainSnapshot, find?_upsert (update_root excluded)]
  by_cases hroot : excluded.rootDomainAscii = root
  · rw [if_pos hroot, if_pos hroot]
    cases hold : rows.find? fun row => row.rootDomainAscii = root with
    | none => rfl
    | some old =>
      have hkey : excluded.rootDomainAscii = old.rootDomainAscii :=
        hroot.trans (find?_key hold).2.symm
      rw [Option.map_some, Option.getD_some, LastGreatest.keep, DomainSnapshotRow.update]
      by_cases hle : rowLe old excluded
      · rw [if_pos hle, if_pos (supersedes_iff.mpr hle), ← hkey]
      · rw [if_neg hle, if_neg fun h => hle (supersedes_iff.mp h)]
  · rw [if_neg hroot, if_neg hroot]

/-- The row that a table of upserts has for a domain. -/
theorem find?_foldl_upsert (rows : List DomainSnapshotRow) (root : PyStr) :
    (rows.foldl upsertDomainSnapshot []).find? (fun row => row.rootDomainAscii = root) =
      LastGreatest.kept DomainSnapshotRow.rootDomainAscii rowLe root rows := by
  induction rows using List.reverseRecOn with
  | nil => rfl
  | append_singleton rows row ih =>
    rw [List.foldl_append, List.foldl_cons, List.foldl_nil, find?_upsertDomainSnapshot, ih,
      LastGreatest.kept_concat]

/-! ## The dictionary -/

/-- A snapshot is not after another one. -/
def snapshotLe (a b : PolicySnapshot) : Prop := tupleLe a.recoveryOrder b.recoveryOrder

instance : DecidableRel snapshotLe := fun a b =>
  inferInstanceAs (Decidable (tupleLe a.recoveryOrder b.recoveryOrder))

instance : Std.Total snapshotLe := ⟨fun a b => tupleLe_total a.recoveryOrder b.recoveryOrder⟩

instance : IsTrans PolicySnapshot snapshotLe := ⟨fun _ _ _ => tupleLe_trans⟩

namespace LatestSnapshots

theorem get?_assign (latest : LatestSnapshots) (root root' : PyStr) (snapshot : PolicySnapshot) :
    (latest.assign root snapshot).get? root' =
      if root = root' then some snapshot else latest.get? root' := by
  have hkeep (entry : PyStr × PolicySnapshot) : (entry.1, snapshot).1 = entry.1 := rfl
  rw [get?, assign, find?_upsert hkeep]
  by_cases hroot : root = root'
  · rw [if_pos hroot, if_pos hroot]
    cases latest.find? fun entry => entry.1 = root' with
    | none => rfl
    | some entry => rfl
  · rw [if_neg hroot, if_neg hroot]
    rfl

/-- The snapshot of a domain after another one was recorded. -/
theorem get?_recordSnapshot (latest : LatestSnapshots) (snapshot : PolicySnapshot) (root : PyStr) :
    (recordSnapshot latest snapshot).get? root =
      if snapshot.rootDomainAscii = root then
        LastGreatest.keep snapshotLe (latest.get? root) snapshot
      else latest.get? root := by
  by_cases hroot : snapshot.rootDomainAscii = root
  · subst hroot
    rw [if_pos rfl, recordSnapshot]
    cases hcurrent : latest.get? snapshot.rootDomainAscii with
    | none =>
      rw [get?_assign, if_pos rfl]
      rfl
    | some current =>
      dsimp only
      by_cases hle : tupleLe current.recoveryOrder snapshot.recoveryOrder
      · have hkeep : LastGreatest.keep snapshotLe (some current) snapshot = some snapshot := if_pos hle
        rw [if_pos hle, get?_assign, if_pos rfl, hkeep]
      · have hkeep : LastGreatest.keep snapshotLe (some current) snapshot = some current := if_neg hle
        rw [if_neg hle, hcurrent, hkeep]
  · rw [if_neg hroot, recordSnapshot]
    split
    · rw [get?_assign, if_neg hroot]
    · split
      · rw [get?_assign, if_neg hroot]
      · rfl

theorem get?_foldl_recordSnapshot (snapshots : List PolicySnapshot) (root : PyStr) :
    (snapshots.foldl recordSnapshot ([] : LatestSnapshots)).get? root =
      LastGreatest.kept PolicySnapshot.rootDomainAscii snapshotLe root snapshots := by
  induction snapshots using List.reverseRecOn with
  | nil => rfl
  | append_singleton snapshots snapshot ih =>
    rw [List.foldl_append, List.foldl_cons, List.foldl_nil, get?_recordSnapshot, ih,
      LastGreatest.kept_concat]

end LatestSnapshots

/-! ## What the receipts offer -/

/-- The row of the table for a snapshot. -/
def PolicySnapshot.row (snapshot : PolicySnapshot) : DomainSnapshotRow where
  rootDomainAscii := snapshot.rootDomainAscii
  domainId := snapshot.domainId
  receivedAt := snapshot.receivedAt
  domainPolicyJson := PyJson.dumps (.dict snapshot.domainPolicy)
  recoveryOrderNs := snapshot.recoveryOrder.1
  manifestMtimeNs := snapshot.recoveryOrder.2

/-- The snapshots that a receipt offers. -/
def receiptSnapshots (E : ScanEnvironment) (m : ManifestPath × RecoveryReceipt) : List PolicySnapshot :=
  m.2.recipients.map (policySnapshot (manifestRecoveryOrderFromMtime (E.mtime m.1) m.2) m.2)

/-- The snapshots that the receipts of a scan offer, in their order. -/
def offeredSnapshots (E : ScanEnvironment) (paths : List ManifestPath) : List PolicySnapshot :=
  (policyReceipts E paths).flatMap (receiptSnapshots E)

/-- The table and the dictionary keep the same snapshot of a domain. -/
theorem find?_row_eq (snapshots : List PolicySnapshot) (root : PyStr) :
    ((snapshots.map PolicySnapshot.row).foldl upsertDomainSnapshot []).find?
        (fun row => row.rootDomainAscii = root) =
      ((snapshots.foldl recordSnapshot ([] : LatestSnapshots)).get? root).map PolicySnapshot.row := by
  rw [find?_foldl_upsert, LatestSnapshots.get?_foldl_recordSnapshot]
  exact LastGreatest.kept_map (fun _ => rfl) fun _ _ => Iff.rfl

end RapidInbox.Recovery

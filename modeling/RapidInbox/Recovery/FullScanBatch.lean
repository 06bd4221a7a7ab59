import RapidInbox.Recovery.StagedPolicies

/-!
# One batch of the full scan

What `_spool_full_scan_batch` and `_record_full_scan_watermark_paths` do with a batch, and when they
raise.
-/

namespace RapidInbox.Recovery

variable {E : ScanEnvironment} {paths : List ManifestPath}

/-! ## Spooling a batch -/

/-- The values of a row can be bound. -/
structure DomainSnapshotRow.Bindable (row : DomainSnapshotRow) : Prop where
  rootDomainAscii : PyStr.encodable row.rootDomainAscii = true
  domainId : fitsInteger row.domainId = true
  receivedAt : PyStr.encodable row.receivedAt = true
  domainPolicyJson : PyStr.encodable row.domainPolicyJson = true
  recoveryOrderNs : fitsInteger row.recoveryOrderNs = true
  manifestMtimeNs : fitsInteger row.manifestMtimeNs = true

theorem spoolSnapshot_ok_iff (rows : List DomainSnapshotRow) (row : DomainSnapshotRow)
    {rows' : List DomainSnapshotRow} :
    spoolSnapshot rows row = .ok rows' ↔ row.Bindable ∧ rows' = upsertDomainSnapshot rows row := by
  unfold spoolSnapshot
  simp only [Except.bind_ok_iff, bindText_ok_iff, bindInteger_ok_iff]
  constructor
  · rintro ⟨-, hroot, -, hid, -, hreceived, -, hjson, -, horder, -, hmtime, h⟩
    exact ⟨⟨hroot, hid, hreceived, hjson, horder, hmtime⟩, (Except.ok.inj h).symm⟩
  · rintro ⟨h, rfl⟩
    exact ⟨(), h.rootDomainAscii, (), h.domainId, (), h.receivedAt, (), h.domainPolicyJson, (),
      h.recoveryOrderNs, (), h.manifestMtimeNs, rfl⟩

theorem spoolManifest_ok_iff {rows rows' : List (PyStr × PyStr)} {m : ManifestPath × RecoveryReceipt} :
    spoolManifest E rows m = .ok rows' ↔
      (PyStr.encodable (E.pathText m.1) = true ∧ PyJson.encodableFields m.2.document = true) ∧
        rows' = rows ++ [(E.pathText m.1, PyJson.dumps (.dict m.2.document))] := by
  unfold spoolManifest
  simp only [Except.bind_ok_iff, bindText_ok_iff, PyJson.encodable_dumps]
  constructor
  · rintro ⟨-, hpath, -, hdocument, h⟩
    exact ⟨⟨hpath, hdocument⟩, (Except.ok.inj h).symm⟩
  · rintro ⟨⟨hpath, hdocument⟩, rfl⟩
    exact ⟨(), hpath, (), hdocument, rfl⟩

/-- The manifests that a batch spools. -/
def spooledManifests (E : ScanEnvironment) (paths : List ManifestPath) : List (PyStr × PyStr) :=
  ((scanResult E paths).policy ++ (scanResult E paths).legacy).map fun m =>
    (E.pathText m.1, PyJson.dumps (.dict m.2.document))

theorem mem_scanResult {m : ManifestPath × RecoveryReceipt} :
    m ∈ (scanResult E paths).policy ++ (scanResult E paths).legacy ↔ m ∈ stagedReceipts E paths := by
  rw [scanResult, policyReceipts, List.mem_append, List.mem_filter, List.mem_filter]
  cases hasDomainPolicy m.2 with
  | true => simp
  | false => simp

theorem selectedMtime_policy {m : ManifestPath × RecoveryReceipt} (hm : m ∈ policyReceipts E paths) :
    selectedMtime (withMtimes E paths) m.1 = E.mtime m.1 := by
  have hstaged := (List.mem_filter.mp hm).1
  rw [stagedReceipts_eq] at hstaged
  exact selectedMtime_withMtimes (mem_parsedReceipts.mp (List.mem_filter.mp hstaged).1).1

theorem foldl_append_map {α β : Type} (f : α → β) (xs : List α) (ys : List β) :
    xs.foldl (fun ys x => ys ++ [f x]) ys = ys ++ xs.map f := by
  induction xs generalizing ys with
  | nil => simp
  | cons x xs ih => rw [List.foldl_cons, ih, List.map_cons, List.append_assoc, List.singleton_append]

/-- A batch is spooled exactly when it can be scanned and the values of its rows can be bound. -/
theorem spoolFullScanBatch_ok_iff {spool spool' : SpoolTables} :
    spoolFullScanBatch E spool (withMtimes E paths) = .ok spool' ↔
      (∀ path ∈ paths, Readable E path) ∧
      (∀ m ∈ stagedReceipts E paths, PyStr.encodable (E.pathText m.1) = true ∧
        PyJson.encodableFields m.2.document = true) ∧
      (∀ snapshot ∈ offeredSnapshots E paths, snapshot.row.Bindable) ∧
      spool' = {
        recoveryManifests := spool.recoveryManifests ++ spooledManifests E paths
        recoveryDomainSnapshots := ((offeredSnapshots E paths).map PolicySnapshot.row).foldl
          upsertDomainSnapshot spool.recoveryDomainSnapshots } := by
  -- the rows of one receipt
  have hreceipt (m : ManifestPath × RecoveryReceipt) (hm : m ∈ policyReceipts E paths)
      (rows rows' : List DomainSnapshotRow) :
      m.2.recipients.foldlM (fun rows recipient => spoolSnapshot rows (snapshotRow
          (manifestRecoveryOrderFromMtime (selectedMtime (withMtimes E paths) m.1) m.2) m.2 recipient))
        rows = .ok rows' ↔
      (∀ snapshot ∈ receiptSnapshots E m, snapshot.row.Bindable) ∧
        rows' = ((receiptSnapshots E m).map PolicySnapshot.row).foldl upsertDomainSnapshot rows := by
    rw [selectedMtime_policy hm, receiptSnapshots, List.forall_mem_map, List.map_map, List.foldl_map]
    exact Except.foldlM_ok_iff fun recipient _ rows _ => spoolSnapshot_ok_iff rows
      (snapshotRow (manifestRecoveryOrderFromMtime (E.mtime m.1) m.2) m.2 recipient)
  unfold spoolFullScanBatch
  simp only [Except.bind_ok_iff, scanSelectedManifestFiles_ok_iff,
    Except.foldlM_ok_iff fun m _ _ _ => spoolManifest_ok_iff (m := m), foldl_append_map]
  constructor
  · rintro ⟨scan, ⟨hread, rfl⟩, manifests, ⟨htexts, rfl⟩, rows, hrows, h⟩
    obtain ⟨hbind, rfl⟩ := (Except.foldlM_ok_iff hreceipt).mp hrows
    refine ⟨hread, fun m hm => htexts m (mem_scanResult.mpr hm), ?_, ?_⟩
    · intro snapshot hsnapshot
      obtain ⟨m, hm, hmem⟩ := List.mem_flatMap.mp hsnapshot
      exact hbind m hm snapshot hmem
    · rw [← Except.ok.inj h, offeredSnapshots, List.map_flatMap, List.foldl_flatMap]
      rfl
  · rintro ⟨hread, htexts, hbind, rfl⟩
    refine ⟨_, ⟨hread, rfl⟩, _, ⟨fun m hm => htexts m (mem_scanResult.mp hm), rfl⟩, _,
      (Except.foldlM_ok_iff hreceipt).mpr ⟨?_, rfl⟩, ?_⟩
    · intro m hm snapshot hsnapshot
      exact hbind snapshot (List.mem_flatMap.mpr ⟨m, hm, hsnapshot⟩)
    · rw [offeredSnapshots, List.map_flatMap, List.foldl_flatMap]
      rfl

/-! ## Files that can be staged -/

/-- The scan can stage the file: it can read it, no string of a receipt that it stages has a
    surrogate, and the integers of the policies fit. -/
structure Stageable (E : ScanEnvironment) (path : ManifestPath) : Prop where
  readable : Readable E path
  document : ∀ receipt, E.staged? path = some receipt →
    PyJson.encodableFields receipt.document = true
  integers : ∀ receipt, E.staged? path = some receipt → ∀ recipient ∈ receipt.recipients,
    fitsInteger recipient.domainId = true ∧
    fitsInteger (manifestRecoveryOrderFromMtime (E.mtime path) receipt).1 = true ∧
    fitsInteger (manifestRecoveryOrderFromMtime (E.mtime path) receipt).2 = true

theorem mem_stagedReceipts {m : ManifestPath × RecoveryReceipt} :
    m ∈ stagedReceipts E paths ↔ m.1 ∈ paths ∧ E.staged? m.1 = some m.2 := by
  rw [stagedReceipts, List.mem_filterMap]
  constructor
  · rintro ⟨path, hpath, hm⟩
    obtain ⟨receipt, hreceipt, rfl⟩ := Option.map_eq_some_iff.mp hm
    exact ⟨hpath, hreceipt⟩
  · rintro ⟨hpath, hreceipt⟩
    exact ⟨m.1, hpath, Option.map_eq_some_iff.mpr ⟨m.2, hreceipt, rfl⟩⟩

/-- The texts of a staged receipt are part of its document. -/
theorem encodable_of_staged {path : ManifestPath} {receipt : RecoveryReceipt}
    (h : E.staged? path = some receipt) (hdocument : PyJson.encodableFields receipt.document = true) :
    receipt.Encodable := by
  have hparsed : E.parsed? path = some receipt := Option.eq_some_of_filter_eq_some h
  unfold ScanEnvironment.parsed? at hparsed
  split at hparsed
  · cases hparsed
  · unfold ScanEnvironment.parseManifest at hparsed
    split at hparsed
    · cases hparsed
    · split at hparsed
      · rename_i hvalid
        cases hparsed
        exact validateRecoveryManifest_encodable hvalid hdocument
      · cases hparsed
      · cases hparsed

theorem mem_offeredSnapshots {snapshot : PolicySnapshot} :
    snapshot ∈ offeredSnapshots E paths ↔ ∃ path ∈ paths, ∃ receipt, E.staged? path = some receipt ∧
      ∃ recipient ∈ receipt.recipients, snapshot = policySnapshot
        (manifestRecoveryOrderFromMtime (E.mtime path) receipt) receipt recipient := by
  rw [offeredSnapshots, List.mem_flatMap]
  constructor
  · rintro ⟨⟨path, receipt⟩, hm, hsnapshot⟩
    obtain ⟨recipient, hrecipient, rfl⟩ := List.mem_map.mp hsnapshot
    obtain ⟨hpath, hreceipt⟩ := mem_stagedReceipts.mp (List.mem_filter.mp hm).1
    exact ⟨path, hpath, receipt, hreceipt, recipient, hrecipient, rfl⟩
  · rintro ⟨path, hpath, receipt, hreceipt, recipient, hrecipient, rfl⟩
    refine ⟨(path, receipt), List.mem_filter.mpr ⟨mem_stagedReceipts.mpr ⟨hpath, hreceipt⟩, ?_⟩,
      List.mem_map_of_mem hrecipient⟩
    have hne : receipt.recipients.isEmpty = false :=
      List.isEmpty_eq_false_iff.mpr (List.ne_nil_of_mem hrecipient)
    simp [hasDomainPolicy, hne]

theorem stageable_iff :
    (∀ path ∈ paths, Stageable E path) ↔
      (∀ path ∈ paths, Readable E path) ∧
      (∀ m ∈ stagedReceipts E paths, PyJson.encodableFields m.2.document = true) ∧
      ∀ snapshot ∈ offeredSnapshots E paths, snapshot.row.Bindable := by
  constructor
  · intro h
    refine ⟨fun path hpath => (h path hpath).readable, ?_, ?_⟩
    · intro m hm
      obtain ⟨hpath, hreceipt⟩ := mem_stagedReceipts.mp hm
      exact (h _ hpath).document _ hreceipt
    · intro snapshot hsnapshot
      obtain ⟨path, hpath, receipt, hreceipt, recipient, hrecipient, rfl⟩ :=
        mem_offeredSnapshots.mp hsnapshot
      have htexts := encodable_of_staged hreceipt ((h path hpath).document receipt hreceipt)
      obtain ⟨hid, horder, hmtime⟩ := (h path hpath).integers receipt hreceipt recipient hrecipient
      have hpolicy : PyStr.encodable (PyJson.dumps (.dict recipient.domainPolicy)) = true := by
        rw [PyJson.encodable_dumps]
        exact (htexts.recipients recipient hrecipient).domainPolicy
      exact ⟨(htexts.recipients recipient hrecipient).rootDomainAscii, hid, htexts.receivedAt, hpolicy,
        horder, hmtime⟩
  · rintro ⟨hread, hdocument, hbind⟩ path hpath
    refine ⟨hread path hpath, ?_, ?_⟩
    · intro receipt hreceipt
      exact hdocument (path, receipt) (mem_stagedReceipts.mpr ⟨hpath, hreceipt⟩)
    · intro receipt hreceipt recipient hrecipient
      have hrow := hbind _ (mem_offeredSnapshots.mpr
        ⟨path, hpath, receipt, hreceipt, recipient, hrecipient, rfl⟩)
      exact ⟨hrow.domainId, hrow.recoveryOrderNs, hrow.manifestMtimeNs⟩

/-! ## The watermark of the scanned paths -/

/-- The latest modification time, or -1. -/
def latestMtime (E : ScanEnvironment) (paths : List ManifestPath) : Int :=
  paths.foldl (fun latest path => max latest (E.mtime path : Int)) (-1)

theorem latestMtime_concat (paths : List ManifestPath) (path : ManifestPath) :
    latestMtime E (paths ++ [path]) = max (latestMtime E paths) (E.mtime path) := by
  rw [latestMtime, List.foldl_append]
  rfl

theorem latestMtime_mono (paths more : List ManifestPath) :
    latestMtime E paths ≤ latestMtime E (paths ++ more) := by
  induction more using List.reverseRecOn with
  | nil => exact Int.le_of_eq (congrArg (latestMtime E) (List.append_nil paths).symm)
  | append_singleton more path ih =>
    rw [← List.append_assoc, latestMtime_concat]
    exact Int.le_trans ih (Int.le_max_left _ _)

theorem mtime_le_latest {path : ManifestPath} (h : path ∈ paths) :
    (E.mtime path : Int) ≤ latestMtime E paths := by
  obtain ⟨before, after, rfl⟩ := List.append_of_mem h
  rw [← List.singleton_append, ← List.append_assoc]
  refine Int.le_trans ?_ (latestMtime_mono _ _)
  rw [latestMtime_concat]
  exact Int.le_max_right _ _

/-- Some path has the latest modification time. -/
theorem exists_latest (h : paths ≠ []) : ∃ path ∈ paths, (E.mtime path : Int) = latestMtime E paths := by
  induction paths using List.reverseRecOn with
  | nil => exact absurd rfl h
  | append_singleton paths path ih =>
    rw [latestMtime_concat]
    by_cases hle : latestMtime E paths ≤ E.mtime path
    · exact ⟨path, by simp, (Int.max_eq_right hle).symm⟩
    · have hlt : (E.mtime path : Int) < latestMtime E paths := Int.not_le.mp hle
      have hne : paths ≠ [] := by
        rintro rfl
        have hneg : latestMtime E ([] : List ManifestPath) = -1 := rfl
        omega
      obtain ⟨latest, hmem, heq⟩ := ih hne
      exact ⟨latest, List.mem_append_left _ hmem, by rw [heq, Int.max_eq_left (Int.le_of_lt hlt)]⟩

/-- `INSERT OR IGNORE` of a path that can be bound. -/
def insertNew (texts : List PyStr) (text : PyStr) : List PyStr :=
  if text ∈ texts then texts else texts ++ [text]

theorem mem_foldl_insertNew {texts more : List PyStr} {text : PyStr} :
    text ∈ more.foldl insertNew texts ↔ text ∈ texts ∨ text ∈ more := by
  induction more generalizing texts with
  | nil => simp
  | cons other more ih =>
    rw [List.foldl_cons, ih, insertNew]
    by_cases hmem : other ∈ texts
    · rw [if_pos hmem, List.mem_cons]
      constructor
      · exact fun h => h.imp_right .inr
      · rintro (h | rfl | h)
        · exact .inl h
        · exact .inl hmem
        · exact .inr h
    · rw [if_neg hmem, List.mem_append, List.mem_singleton, List.mem_cons, or_assoc]

theorem insertPath_ok_iff (texts : List PyStr) (text : PyStr) {texts' : List PyStr} :
    insertPath texts text = .ok texts' ↔
      PyStr.encodable text = true ∧ texts' = insertNew texts text := by
  unfold insertPath
  simp only [Except.bind_ok_iff, bindText_ok_iff]
  constructor
  · rintro ⟨-, htext, h⟩
    exact ⟨htext, (Except.ok.inj h).symm⟩
  · rintro ⟨htext, rfl⟩
    exact ⟨(), htext, rfl⟩

/-- The record of a batch whose watermark is not below the staged one. -/
theorem recordFullScanWatermarkPaths_ok_iff {selected : List (ManifestPath × Nat)} {latest : Int}
    {state state' : PeriodicState} (hlatest : 0 ≤ latest)
    (hstaged : state.fullScanStagedWatermarkNs ≤ latest) :
    recordFullScanWatermarkPaths E selected latest state = .ok state' ↔
      (∀ text ∈ latestPaths E selected latest, PyStr.encodable text = true) ∧
        state' = { state with
          fullScanStagedWatermarkNs := latest
          fullScanWatermarkPaths := (latestPaths E selected latest).foldl insertNew
            (if state.fullScanStagedWatermarkNs < latest then [] else state.fullScanWatermarkPaths) } := by
  have hloop (texts texts' : List PyStr) :
      (latestPaths E selected latest).foldlM insertPath texts = .ok texts' ↔
        (∀ text ∈ latestPaths E selected latest, PyStr.encodable text = true) ∧
          texts' = (latestPaths E selected latest).foldl insertNew texts :=
    Except.foldlM_ok_iff fun text _ texts _ => insertPath_ok_iff texts text
  unfold recordFullScanWatermarkPaths
  rw [if_neg (Int.not_lt.mpr hlatest)]
  by_cases hlt : state.fullScanStagedWatermarkNs < latest
  · rw [if_pos hlt, if_pos hlt, Except.bind_ok_iff]
    constructor
    · rintro ⟨texts, htexts, h⟩
      obtain ⟨hall, rfl⟩ := (hloop _ _).mp htexts
      exact ⟨hall, (Except.ok.inj h).symm⟩
    · rintro ⟨hall, rfl⟩
      exact ⟨_, (hloop _ _).mpr ⟨hall, rfl⟩, rfl⟩
  · have heq : state.fullScanStagedWatermarkNs = latest := by omega
    rw [if_neg hlt, if_neg hlt, if_neg (by omega), Except.bind_ok_iff]
    constructor
    · rintro ⟨texts, htexts, h⟩
      obtain ⟨hall, rfl⟩ := (hloop _ _).mp htexts
      refine ⟨hall, ?_⟩
      rw [← Except.ok.inj h, ← heq]
    · rintro ⟨hall, rfl⟩
      refine ⟨_, (hloop _ _).mpr ⟨hall, rfl⟩, ?_⟩
      rw [← heq]
      rfl

end RapidInbox.Recovery

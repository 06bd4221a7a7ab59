import Mathlib.Algebra.Ring.Int.Defs
import RapidInbox.Lib.Table
import RapidInbox.Recovery.Validation

/-!
# The full recovery scan

At start-up recovery reads every receipt under `manifests/` once, in batches that bound the memory
it needs, and stages what it will replay in a temporary database.  Of every domain it stages the
policy of the receipt that is last in recovery order, and of the scan itself the paths that have the
latest modification time, from which the periodic scan goes on.
-/

namespace RapidInbox.Recovery

open Table

/-! ## The files -/

/-- A file that `_iter_full_manifest_paths` yields: its directory relative to the storage root, and
    its name, which ends in `.json`. -/
structure ManifestPath where
  directory : PyStr
  fileName : PyStr
  deriving DecidableEq

namespace ManifestPath

def slash : PyStr := PyStr.ofChars ['/']

/-- `_relative_storage_path` -/
def relative (path : ManifestPath) : PyStr := path.directory ++ (slash ++ path.fileName)

/-- `path.stem`, of a name that ends in `.json`; the suffix alone is no suffix. -/
def stem (path : ManifestPath) : PyStr :=
  if 5 < path.fileName.length then path.fileName.take (path.fileName.length - 5) else path.fileName

end ManifestPath

structure FileStat where
  mtimeNs : Nat
  sizeBytes : Nat

/-- What a scan finds beside the state of recovery, and does not change. -/
structure ScanEnvironment where
  storageRoot : PyStr
  /-- `path.stat()`, unless it raises `OSError` -/
  stat : ManifestPath → Option FileStat
  /-- `_read_manifest`, unless it raises an error of reading, decoding or parsing -/
  read : ManifestPath → Option PyJson
  /-- `storage.resolve` accepts the path -/
  resolves : PyStr → Bool
  /-- there is a row of `file_gc_tasks` for the path -/
  fileGcTask : PyStr → Bool
  /-- there is a message with this id and with deliveries -/
  completeMessage : PyStr → Bool
  /-- the message is being accepted -/
  activeAccept : PyStr → Bool
  /-- the scan needs no stability, or the modification time is old enough -/
  stable : Nat → Bool
  /-- `_validate_raw_artifact` does not raise -/
  rawMatches : RecoveryReceipt → Bool

namespace ScanEnvironment

variable (E : ScanEnvironment)

/-- `str(path)` -/
def pathText (path : ManifestPath) : PyStr := E.storageRoot ++ (ManifestPath.slash ++ path.relative)

/-! ## Statements -/

end ScanEnvironment

/-- A text is bound to a statement. -/
def bindText (s : PyStr) : Checked Unit :=
  if PyStr.encodable s then .ok () else .error .unicodeEncode

/-- What SQLite can hold as an integer. -/
def fitsInteger (n : Int) : Bool := decide (-2 ^ 63 ≤ n) && decide (n < 2 ^ 63)

/-- An integer is bound to a statement. -/
def bindInteger (n : Int) : Checked Unit :=
  if fitsInteger n then .ok () else .error .integerOverflow

/-- The keys that a table has, of those asked for. -/
def selectKeys (present : PyStr → Bool) (keys : List PyStr) : Checked (List PyStr) := do
  keys.forM bindText
  return keys.filter present

namespace ScanEnvironment

variable (E : ScanEnvironment)

/-- `_file_gc_storage_paths` -/
def fileGcStoragePaths (paths : List PyStr) : Checked (List PyStr) := selectKeys E.fileGcTask paths

/-- `_complete_message_ids_subset` -/
def completeMessageIdsSubset (ids : List PyStr) : Checked (List PyStr) :=
  selectKeys E.completeMessage ids

/-! ## Reading a batch -/

/-- `_read_manifest` and `validate_recovery_manifest`: a file that fails with one of the errors that
    the scan catches is quarantined. -/
def parseManifest (path : ManifestPath) : Checked (Option RecoveryReceipt) :=
  match E.read path with
  | none => .ok none
  | some value =>
    match validateRecoveryManifest E.resolves value with
    | .ok receipt => .ok (some receipt)
    | .error .invalidManifest => .ok none
    | .error error => .error error

end ScanEnvironment

/-- `dict(selected_paths)[path]` -/
def selectedMtime (selected : List (ManifestPath × Nat)) (path : ManifestPath) : Nat :=
  ((selected.reverse.find? fun p => p.1 = path).map Prod.snd).getD 0

/-- `_has_domain_policy` -/
def hasDomainPolicy (receipt : RecoveryReceipt) : Bool := !receipt.recipients.isEmpty

structure ScanResult where
  policy : List (ManifestPath × RecoveryReceipt)
  legacy : List (ManifestPath × RecoveryReceipt)
  retryPaths : List ManifestPath

/-- `_scan_selected_manifest_files` -/
def scanSelectedManifestFiles (E : ScanEnvironment) (selected : List (ManifestPath × Nat)) :
    Checked ScanResult := do
  let retiredManifestPaths ← E.fileGcStoragePaths (selected.map fun p => p.1.relative)
  let completeFilenameIds ← E.completeMessageIdsSubset (selected.map fun p => p.1.stem)
  let unread := selected.filter fun p =>
    !(decide (p.1.relative ∈ retiredManifestPaths) || decide (p.1.stem ∈ completeFilenameIds))
  let read ← unread.mapM fun p => do
    let receipt ← E.parseManifest p.1
    return receipt.map (p.1, ·)
  let parsed := read.filterMap id
  let retiredRawPaths ← E.fileGcStoragePaths (parsed.map fun m => m.2.rawPath)
  let activeParsed := parsed.filter fun m => m.2.rawPath ∉ retiredRawPaths
  let completeMessageIds ← E.completeMessageIdsSubset (activeParsed.map fun m => m.2.messageId)
  let missing := activeParsed.filter fun m => m.2.messageId ∉ completeMessageIds
  let settled := fun m : ManifestPath × RecoveryReceipt =>
    !E.activeAccept m.2.messageId && E.stable (selectedMtime selected m.1)
  let staged := (missing.filter settled).filter fun m => E.rawMatches m.2
  return {
    policy := staged.filter fun m => hasDomainPolicy m.2
    legacy := staged.filter fun m => !hasDomainPolicy m.2
    retryPaths := (missing.filter fun m => !settled m).map Prod.fst }

/-! ## The order of two receipts -/

/-- `_manifest_recovery_order_from_mtime`; the validation has checked the type of the field. -/
def manifestRecoveryOrderFromMtime (mtimeNs : Nat) (receipt : RecoveryReceipt) : Nat × Nat :=
  match receipt.recoveryOrderNs with
  | none => (mtimeNs, mtimeNs)
  | some recoveryOrderNs => (recoveryOrderNs, mtimeNs)

/-- The comparison of two tuples. -/
def tupleLe (a b : Nat × Nat) : Prop := a.1 < b.1 ∨ a.1 = b.1 ∧ a.2 ≤ b.2

instance : DecidableRel tupleLe := fun a b =>
  inferInstanceAs (Decidable (a.1 < b.1 ∨ a.1 = b.1 ∧ a.2 ≤ b.2))

/-! ## The policies that the full scan stages -/

/-- A row of `recovery_domain_snapshots`. -/
structure DomainSnapshotRow where
  rootDomainAscii : PyStr
  domainId : Int
  receivedAt : PyStr
  domainPolicyJson : PyStr
  recoveryOrderNs : Nat
  manifestMtimeNs : Nat
  deriving DecidableEq

/-- The `WHERE` of the conflict clause. -/
def DomainSnapshotRow.supersedes (excluded row : DomainSnapshotRow) : Bool :=
  decide (excluded.recoveryOrderNs > row.recoveryOrderNs) ||
    (decide (excluded.recoveryOrderNs = row.recoveryOrderNs) &&
      decide (excluded.manifestMtimeNs ≥ row.manifestMtimeNs))

/-- The `SET` of the conflict clause, where its condition holds. -/
def DomainSnapshotRow.update (excluded row : DomainSnapshotRow) : DomainSnapshotRow :=
  if excluded.supersedes row then
    { row with
      domainId := excluded.domainId
      receivedAt := excluded.receivedAt
      domainPolicyJson := excluded.domainPolicyJson
      recoveryOrderNs := excluded.recoveryOrderNs
      manifestMtimeNs := excluded.manifestMtimeNs }
  else row

/-- `INSERT … ON CONFLICT(root_domain_ascii) DO UPDATE SET … WHERE …` -/
def upsertDomainSnapshot (rows : List DomainSnapshotRow) (excluded : DomainSnapshotRow) :
    List DomainSnapshotRow :=
  upsert DomainSnapshotRow.rootDomainAscii excluded.update excluded rows

/-- The temporary database of a scan. -/
structure SpoolTables where
  recoveryManifests : List (PyStr × PyStr)
  recoveryDomainSnapshots : List DomainSnapshotRow

namespace SpoolTables

/-- The row of a domain. -/
def snapshot? (spool : SpoolTables) (root : PyStr) : Option DomainSnapshotRow :=
  spool.recoveryDomainSnapshots.find? fun row => row.rootDomainAscii = root

end SpoolTables

/-- A row of `recovery_manifests`. -/
def spoolManifest (E : ScanEnvironment) (rows : List (PyStr × PyStr))
    (m : ManifestPath × RecoveryReceipt) : Checked (List (PyStr × PyStr)) := do
  let manifestJson := PyJson.dumps (.dict m.2.document)
  bindText (E.pathText m.1)
  bindText manifestJson
  return rows ++ [(E.pathText m.1, manifestJson)]

/-- The row that a recipient of a receipt offers. -/
def snapshotRow (order : Nat × Nat) (receipt : RecoveryReceipt) (recipient : ManifestRecipient) :
    DomainSnapshotRow where
  rootDomainAscii := recipient.rootDomainAscii
  domainId := recipient.domainId
  receivedAt := receipt.receivedAt
  domainPolicyJson := PyJson.dumps (.dict recipient.domainPolicy)
  recoveryOrderNs := order.1
  manifestMtimeNs := order.2

def spoolSnapshot (rows : List DomainSnapshotRow) (row : DomainSnapshotRow) :
    Checked (List DomainSnapshotRow) := do
  bindText row.rootDomainAscii
  bindInteger row.domainId
  bindText row.receivedAt
  bindText row.domainPolicyJson
  bindInteger row.recoveryOrderNs
  bindInteger row.manifestMtimeNs
  return upsertDomainSnapshot rows row

/-- `_spool_full_scan_batch` -/
def spoolFullScanBatch (E : ScanEnvironment) (spool : SpoolTables)
    (selected : List (ManifestPath × Nat)) : Checked SpoolTables := do
  let scanResult ← scanSelectedManifestFiles E selected
  let recoveryManifests ←
    (scanResult.policy ++ scanResult.legacy).foldlM (spoolManifest E) spool.recoveryManifests
  let recoveryDomainSnapshots ←
    scanResult.policy.foldlM
      (fun rows m =>
        let order := manifestRecoveryOrderFromMtime (selectedMtime selected m.1) m.2
        m.2.recipients.foldlM (fun rows recipient => spoolSnapshot rows (snapshotRow order m.2 recipient))
          rows)
      spool.recoveryDomainSnapshots
  return { recoveryManifests, recoveryDomainSnapshots }

/-! ## The watermark -/

/-- The part of the periodic state that a full scan prepares. -/
structure PeriodicState where
  fullScanStagedWatermarkNs : Int
  fullScanWatermarkPaths : List PyStr
  periodicWatermarkNs : Int
  periodicWatermarkPaths : List PyStr

/-- `INSERT OR IGNORE INTO … (path)` -/
def insertPath (paths : List PyStr) (path : PyStr) : Checked (List PyStr) := do
  bindText path
  return if path ∈ paths then paths else paths ++ [path]

/-- `_reset_full_scan_watermark_paths` -/
def resetFullScanWatermarkPaths (state : PeriodicState) : PeriodicState :=
  { state with fullScanStagedWatermarkNs := -1, fullScanWatermarkPaths := [] }

/-- The paths that `_record_full_scan_watermark_paths` adds. -/
def latestPaths (E : ScanEnvironment) (selected : List (ManifestPath × Nat)) (latestMtime : Int) :
    List PyStr :=
  (selected.filter fun p => (p.2 : Int) = latestMtime).map fun p => E.pathText p.1

/-- `_record_full_scan_watermark_paths` -/
def recordFullScanWatermarkPaths (E : ScanEnvironment) (selected : List (ManifestPath × Nat))
    (latestMtime : Int) (state : PeriodicState) : Checked PeriodicState :=
  if latestMtime < 0 then .ok state
  else if latestMtime > state.fullScanStagedWatermarkNs then do
    let paths ← (latestPaths E selected latestMtime).foldlM insertPath []
    return { state with fullScanStagedWatermarkNs := latestMtime, fullScanWatermarkPaths := paths }
  else if latestMtime < state.fullScanStagedWatermarkNs then .ok state
  else do
    let paths ← (latestPaths E selected latestMtime).foldlM insertPath state.fullScanWatermarkPaths
    return { state with fullScanWatermarkPaths := paths }

/-- `_advance_full_periodic_watermark` -/
def advanceFullPeriodicWatermark (latestMtime : Int) (state : PeriodicState) : PeriodicState :=
  { state with
    periodicWatermarkNs := latestMtime
    periodicWatermarkPaths := if latestMtime ≥ 0 then state.fullScanWatermarkPaths else []
    fullScanWatermarkPaths := [] }

/-! ## The scan -/

def maxRecoveryManifestBytes : Nat := 16 * 1024 * 1024

/-- `_manifest_budget_bytes` -/
def manifestBudgetBytes (stat : FileStat) : Nat := min stat.sizeBytes (maxRecoveryManifestBytes + 1)

/-- The bounds of a batch: `FULL_MANIFEST_SCAN_BATCH_SIZE` and
    `MAX_RECOVERY_MANIFEST_BATCH_BYTES`. -/
structure BatchBounds where
  batchSize : Nat
  batchBytes : Nat

/-- The bounds of the source. -/
def fullScanBounds : BatchBounds := ⟨500, 16 * 1024 * 1024⟩

/-- The variables of `_build_full_recovery_spool`. -/
structure FullScan where
  watermarkNs : Int
  selectedPaths : List (ManifestPath × Nat)
  selectedBytes : Nat
  spool : SpoolTables
  state : PeriodicState

namespace FullScan

/-- The scan before the first path. -/
def start (state : PeriodicState) : FullScan where
  watermarkNs := -1
  selectedPaths := []
  selectedBytes := 0
  spool := ⟨[], []⟩
  state := resetFullScanWatermarkPaths state

/-- A batch is spooled. -/
def flush (E : ScanEnvironment) (scan : FullScan) : Checked FullScan := do
  let state ← recordFullScanWatermarkPaths E scan.selectedPaths scan.watermarkNs scan.state
  let spool ← spoolFullScanBatch E scan.spool scan.selectedPaths
  return { scan with selectedPaths := [], selectedBytes := 0, spool, state }

/-- A path joins the batch. -/
def select (scan : FullScan) (path : ManifestPath) (stat : FileStat) : FullScan :=
  { scan with
    watermarkNs := max scan.watermarkNs stat.mtimeNs
    selectedPaths := scan.selectedPaths ++ [(path, stat.mtimeNs)]
    selectedBytes := scan.selectedBytes + manifestBudgetBytes stat }

/-- The path would make the batch too large. -/
def overflows (B : BatchBounds) (scan : FullScan) (stat : FileStat) : Bool :=
  !scan.selectedPaths.isEmpty &&
    (decide (B.batchSize ≤ scan.selectedPaths.length) ||
      decide (B.batchBytes < scan.selectedBytes + manifestBudgetBytes stat))

/-- The batch is large enough. -/
def isFull (B : BatchBounds) (scan : FullScan) : Bool :=
  decide (B.batchSize ≤ scan.selectedPaths.length) || decide (B.batchBytes ≤ scan.selectedBytes)

def flushIf (E : ScanEnvironment) (full : Bool) (scan : FullScan) : Checked FullScan :=
  if full then scan.flush E else .ok scan

/-- One turn of the loop. -/
def visit (E : ScanEnvironment) (B : BatchBounds) (scan : FullScan) (path : ManifestPath) :
    Checked FullScan :=
  match E.stat path with
  | none => .ok scan
  | some stat => do
      let scan ← scan.flushIf E (scan.overflows B stat)
      let scan := scan.select path stat
      scan.flushIf E (scan.isFull B)

end FullScan

/-- What the scan returns. -/
structure FullRecoverySpool where
  spool : SpoolTables
  watermarkNs : Int

/-- `_build_full_recovery_spool`, over the paths of `_iter_full_manifest_paths`. -/
def buildFullRecoverySpool (E : ScanEnvironment) (B : BatchBounds) (paths : List ManifestPath)
    (state : PeriodicState) : Checked (FullRecoverySpool × PeriodicState) := do
  let scan ← paths.foldlM (FullScan.visit E B) (.start state)
  let scan ← scan.flushIf E (!scan.selectedPaths.isEmpty)
  return ({ spool := scan.spool, watermarkNs := scan.watermarkNs }, scan.state)

/-! ## The policies that the periodic scan keeps -/

/-- An entry of `latest_policy_snapshots`. -/
structure PolicySnapshot where
  domainId : Int
  rootDomainAscii : PyStr
  receivedAt : PyStr
  domainPolicy : PyDict
  recoveryOrder : Nat × Nat

/-- `latest_policy_snapshots`, in the order of insertion. -/
abbrev LatestSnapshots := List (PyStr × PolicySnapshot)

namespace LatestSnapshots

/-- `latest.get(root)` -/
def get? (latest : LatestSnapshots) (root : PyStr) : Option PolicySnapshot :=
  (latest.find? fun entry => entry.1 = root).map Prod.snd

/-- `latest[root] = snapshot`: an entry that is there keeps its place. -/
def assign (latest : LatestSnapshots) (root : PyStr) (snapshot : PolicySnapshot) : LatestSnapshots :=
  upsert Prod.fst (fun entry => (entry.1, snapshot)) (root, snapshot) latest

end LatestSnapshots

/-- The snapshot that a recipient of a receipt offers. -/
def policySnapshot (order : Nat × Nat) (receipt : RecoveryReceipt) (recipient : ManifestRecipient) :
    PolicySnapshot where
  domainId := recipient.domainId
  rootDomainAscii := recipient.rootDomainAscii
  receivedAt := receipt.receivedAt
  domainPolicy := recipient.domainPolicy
  recoveryOrder := order

/-- `_manifest_recovery_order` -/
def manifestRecoveryOrder (E : ScanEnvironment) (path : ManifestPath) (receipt : RecoveryReceipt) :
    Checked (Nat × Nat) :=
  match E.stat path with
  | none => .error .invalidManifest
  | some stat => .ok (manifestRecoveryOrderFromMtime stat.mtimeNs receipt)

def recordSnapshot (latest : LatestSnapshots) (snapshot : PolicySnapshot) : LatestSnapshots :=
  match latest.get? snapshot.rootDomainAscii with
  | none => latest.assign snapshot.rootDomainAscii snapshot
  | some current =>
    if tupleLe current.recoveryOrder snapshot.recoveryOrder then
      latest.assign snapshot.rootDomainAscii snapshot
    else latest

/-- `_record_latest_policy_snapshots` -/
def recordLatestPolicySnapshots (E : ScanEnvironment) (latest : LatestSnapshots)
    (m : ManifestPath × RecoveryReceipt) : Checked LatestSnapshots := do
  let order ← manifestRecoveryOrder E m.1 m.2
  return m.2.recipients.foldl
    (fun latest recipient => recordSnapshot latest (policySnapshot order m.2 recipient)) latest

end RapidInbox.Recovery

import RapidInbox.Recovery.FullScan

/-!
# What a batch of the full scan stages

Whether a file is staged depends on nothing but the file, so a batch stages the receipts of its
paths one by one.  A batch fails only where a value cannot be bound to a statement, or where the
validation itself raises.
-/

namespace RapidInbox.Recovery

variable {E : ScanEnvironment} {path : ManifestPath}

/-! ## Bound values -/

theorem bindText_ok_iff {s : PyStr} {u : Unit} : bindText s = .ok u ↔ PyStr.encodable s = true := by
  unfold bindText
  by_cases h : PyStr.encodable s = true
  · rw [if_pos h]
    exact iff_of_true rfl h
  · rw [if_neg h]
    exact iff_of_false nofun h

theorem bindInteger_ok_iff {n : Int} {u : Unit} : bindInteger n = .ok u ↔ fitsInteger n = true := by
  unfold bindInteger
  by_cases h : fitsInteger n = true
  · rw [if_pos h]
    exact iff_of_true rfl h
  · rw [if_neg h]
    exact iff_of_false nofun h

theorem selectKeys_ok_iff {present : PyStr → Bool} {keys found : List PyStr} :
    selectKeys present keys = .ok found ↔
      (∀ key ∈ keys, PyStr.encodable key = true) ∧ found = keys.filter present := by
  unfold selectKeys
  rw [Except.bind_ok_iff]
  constructor
  · rintro ⟨u, hkeys, hfound⟩
    exact ⟨(Except.forM_ok_iff fun _ _ => bindText_ok_iff).mp hkeys, (Except.ok.inj hfound).symm⟩
  · rintro ⟨hkeys, rfl⟩
    exact ⟨(), (Except.forM_ok_iff fun _ _ => bindText_ok_iff).mpr hkeys, rfl⟩

/-! ## One file -/

namespace ScanEnvironment

/-- The modification time of a path that has one. -/
def mtime (E : ScanEnvironment) (path : ManifestPath) : Nat :=
  ((E.stat path).map FileStat.mtimeNs).getD 0

theorem mtime_of_stat {E : ScanEnvironment} {path : ManifestPath} {stat : FileStat}
    (h : E.stat path = some stat) : E.mtime path = stat.mtimeNs := by
  rw [mtime, h]
  rfl

/-- The scan passes the file over without opening it. -/
def skips (E : ScanEnvironment) (path : ManifestPath) : Bool :=
  E.fileGcTask path.relative || E.completeMessage path.stem

/-- The receipt in a file that the scan opens, if it is valid. -/
def parsed? (E : ScanEnvironment) (path : ManifestPath) : Option RecoveryReceipt :=
  if E.skips path then none else (E.parseManifest path).toOption.join

/-- The message of a receipt is neither retired, nor stored, nor being accepted, and its raw file is
    as the receipt says. -/
def replays (E : ScanEnvironment) (mtimeNs : Nat) (receipt : RecoveryReceipt) : Bool :=
  !E.fileGcTask receipt.rawPath && (!E.completeMessage receipt.messageId &&
    ((!E.activeAccept receipt.messageId && E.stable mtimeNs) && E.rawMatches receipt))

/-- The receipt that the scan stages for a file. -/
def staged? (E : ScanEnvironment) (path : ManifestPath) : Option RecoveryReceipt :=
  (E.parsed? path).filter (E.replays (E.mtime path))

end ScanEnvironment

/-- The receipts that the scan stages for the files of a batch. -/
def stagedReceipts (E : ScanEnvironment) (paths : List ManifestPath) :
    List (ManifestPath × RecoveryReceipt) :=
  paths.filterMap fun path => (E.staged? path).map (path, ·)

/-- The staged receipts that have a domain policy. -/
def policyReceipts (E : ScanEnvironment) (paths : List ManifestPath) :
    List (ManifestPath × RecoveryReceipt) :=
  (stagedReceipts E paths).filter fun m => hasDomainPolicy m.2

/-- The scan can look the file up and read it. -/
structure Readable (E : ScanEnvironment) (path : ManifestPath) : Prop where
  relative : PyStr.encodable path.relative = true
  parses : E.skips path = false → ∃ receipt, E.parseManifest path = .ok receipt
  rawPath : ∀ receipt, E.parsed? path = some receipt → PyStr.encodable receipt.rawPath = true
  messageId : ∀ receipt, E.parsed? path = some receipt → E.fileGcTask receipt.rawPath = false →
    PyStr.encodable receipt.messageId = true

/-! ## One batch -/

/-- A batch: paths with their modification times. -/
def withMtimes (E : ScanEnvironment) (paths : List ManifestPath) : List (ManifestPath × Nat) :=
  paths.map fun path => (path, E.mtime path)

theorem selectedMtime_withMtimes {paths : List ManifestPath} (h : path ∈ paths) :
    selectedMtime (withMtimes E paths) path = E.mtime path := by
  have hfind : (withMtimes E paths).reverse.find? (fun p => p.1 = path) =
      some (path, E.mtime path) := by
    cases hf : (withMtimes E paths).reverse.find? fun p => p.1 = path with
    | none =>
      rw [List.find?_eq_none] at hf
      have hmem : (path, E.mtime path) ∈ (withMtimes E paths).reverse :=
        List.mem_reverse.mpr (List.mem_map_of_mem h)
      exact absurd (hf _ hmem) (by simp)
    | some p =>
      have hp : p.1 = path := by simpa using List.find?_some hf
      obtain ⟨other, -, rfl⟩ := List.mem_map.mp (List.mem_reverse.mp (List.mem_of_find?_eq_some hf))
      obtain rfl : other = path := hp
      rfl
  rw [selectedMtime, hfind]
  rfl

theorem encodable_stem (h : PyStr.encodable path.relative = true) : PyStr.encodable path.stem = true := by
  unfold ManifestPath.relative at h
  rw [PyStr.encodable_append, PyStr.encodable_append, Bool.and_eq_true, Bool.and_eq_true] at h
  unfold ManifestPath.stem
  split
  · exact List.all_eq_true.mpr fun c hc => List.all_eq_true.mp h.2.2 c (List.mem_of_mem_take hc)
  · exact h.2.2

/-- Membership in the result of a lookup, for a key that was asked for. -/
theorem decide_mem_filter {present : PyStr → Bool} {keys : List PyStr} {key : PyStr} (h : key ∈ keys) :
    decide (key ∈ keys.filter present) = present key := by
  cases hpresent : present key with
  | true => exact decide_eq_true (List.mem_filter.mpr ⟨h, hpresent⟩)
  | false =>
    refine decide_eq_false ?_
    intro hmem
    rw [(List.mem_filter.mp hmem).2] at hpresent
    cases hpresent

/-- The valid receipts in the files of a batch that the scan opens. -/
def parsedReceipts (E : ScanEnvironment) (paths : List ManifestPath) :
    List (ManifestPath × RecoveryReceipt) :=
  paths.filterMap fun path => (E.parsed? path).map (path, ·)

theorem mem_parsedReceipts {paths : List ManifestPath} {m : ManifestPath × RecoveryReceipt} :
    m ∈ parsedReceipts E paths ↔ m.1 ∈ paths ∧ E.parsed? m.1 = some m.2 := by
  rw [parsedReceipts, List.mem_filterMap]
  constructor
  · rintro ⟨path, hpath, hm⟩
    obtain ⟨receipt, hreceipt, rfl⟩ := Option.map_eq_some_iff.mp hm
    exact ⟨hpath, hreceipt⟩
  · rintro ⟨hpath, hreceipt⟩
    exact ⟨m.1, hpath, Option.map_eq_some_iff.mpr ⟨m.2, hreceipt, rfl⟩⟩

theorem filter_parsedReceipts {paths : List ManifestPath} (p : ManifestPath → RecoveryReceipt → Bool) :
    (parsedReceipts E paths).filter (fun m => p m.1 m.2) =
      paths.filterMap fun path => ((E.parsed? path).filter (p path)).map (path, ·) := by
  rw [parsedReceipts, List.filter_filterMap]
  refine congrArg (List.filterMap · paths) (funext fun path => ?_)
  cases E.parsed? path with
  | none => rfl
  | some receipt =>
    cases hp : p path receipt with
    | true => simp [Option.filter, hp]
    | false => simp [Option.filter, hp]

theorem stagedReceipts_eq (paths : List ManifestPath) :
    stagedReceipts E paths =
      (parsedReceipts E paths).filter fun m => E.replays (E.mtime m.1) m.2 :=
  (filter_parsedReceipts fun path receipt => E.replays (E.mtime path) receipt).symm

/-- The files of a batch that the scan opens. -/
def unread (E : ScanEnvironment) (paths : List ManifestPath) : List ManifestPath :=
  paths.filter fun path => !E.skips path

theorem filter_withMtimes (paths : List ManifestPath) :
    (withMtimes E paths).filter (fun p =>
      !(decide (p.1.relative ∈ ((withMtimes E paths).map fun p => p.1.relative).filter E.fileGcTask) ||
        decide (p.1.stem ∈ ((withMtimes E paths).map fun p => p.1.stem).filter E.completeMessage))) =
      withMtimes E (unread E paths) := by
  have hcongr (p : ManifestPath × Nat) (hp : p ∈ withMtimes E paths) :
      (!(decide (p.1.relative ∈ ((withMtimes E paths).map fun p => p.1.relative).filter E.fileGcTask) ||
        decide (p.1.stem ∈ ((withMtimes E paths).map fun p => p.1.stem).filter E.completeMessage))) =
      !E.skips p.1 := by
    rw [decide_mem_filter (List.mem_map_of_mem hp), decide_mem_filter (List.mem_map_of_mem hp)]
    rfl
  rw [List.filter_congr hcongr, withMtimes, List.filter_map]
  rfl

/-- Reading one file. -/
theorem readManifest_ok_iff {p : ManifestPath × Nat} {found : Option (ManifestPath × RecoveryReceipt)} :
    (do let receipt ← E.parseManifest p.1; return receipt.map (p.1, ·)) = Except.ok found ↔
      (∃ receipt, E.parseManifest p.1 = .ok receipt) ∧
        found = ((E.parseManifest p.1).toOption.join).map (p.1, ·) := by
  rw [Except.bind_ok_iff]
  constructor
  · rintro ⟨receipt, hparse, hfound⟩
    rw [hparse]
    exact ⟨⟨receipt, rfl⟩, (Except.ok.inj hfound).symm⟩
  · rintro ⟨⟨receipt, hparse⟩, rfl⟩
    rw [hparse]
    exact ⟨receipt, rfl, rfl⟩

theorem filterMap_read (paths : List ManifestPath) :
    ((withMtimes E (unread E paths)).map fun p =>
      ((E.parseManifest p.1).toOption.join).map (p.1, ·)).filterMap id = parsedReceipts E paths := by
  rw [withMtimes, List.map_map, List.filterMap_map, unread, List.filterMap_filter, parsedReceipts]
  refine congrArg (List.filterMap · paths) (funext fun path => ?_)
  rw [ScanEnvironment.parsed?]
  cases E.skips path with
  | true => rfl
  | false => rfl

/-- Dropping the values whose key a table has. -/
theorem filter_notMem {α : Type} (f : α → PyStr) (present : PyStr → Bool) (values : List α) :
    values.filter (fun m => decide (f m ∉ (values.map f).filter present)) =
      values.filter fun m => !present (f m) := by
  apply List.filter_congr
  intro m hm
  rw [decide_not, decide_mem_filter (List.mem_map_of_mem hm)]

/-- The receipts whose raw file is not retired. -/
def activeReceipts (E : ScanEnvironment) (paths : List ManifestPath) :
    List (ManifestPath × RecoveryReceipt) :=
  (parsedReceipts E paths).filter fun m => !E.fileGcTask m.2.rawPath

/-- The last checks of a scan. -/
theorem staged_of_active (paths : List ManifestPath) :
    (((activeReceipts E paths).filter fun m => !E.completeMessage m.2.messageId).filter fun m =>
      !E.activeAccept m.2.messageId && E.stable (selectedMtime (withMtimes E paths) m.1)).filter
        (fun m => E.rawMatches m.2) = stagedReceipts E paths := by
  rw [stagedReceipts_eq, activeReceipts, List.filter_filter, List.filter_filter, List.filter_filter]
  apply List.filter_congr
  intro m hm
  rw [selectedMtime_withMtimes (mem_parsedReceipts.mp hm).1, ScanEnvironment.replays]
  cases E.fileGcTask m.2.rawPath <;> cases E.completeMessage m.2.messageId <;>
    cases E.rawMatches m.2 <;> simp

/-- What the scan of a batch returns. -/
def scanResult (E : ScanEnvironment) (paths : List ManifestPath) : ScanResult where
  policy := policyReceipts E paths
  legacy := (stagedReceipts E paths).filter fun m => !hasDomainPolicy m.2
  retryPaths :=
    (((activeReceipts E paths).filter fun m => !E.completeMessage m.2.messageId).filter fun m =>
      !(!E.activeAccept m.2.messageId && E.stable (selectedMtime (withMtimes E paths) m.1))).map Prod.fst

/-- A batch is scanned exactly when all its files can be looked up and read. -/
theorem scanSelectedManifestFiles_ok_iff {paths : List ManifestPath} {result : ScanResult} :
    scanSelectedManifestFiles E (withMtimes E paths) = .ok result ↔
      (∀ path ∈ paths, Readable E path) ∧ result = scanResult E paths := by
  unfold scanSelectedManifestFiles ScanEnvironment.fileGcStoragePaths
    ScanEnvironment.completeMessageIdsSubset
  simp only [Except.bind_ok_iff, selectKeys_ok_iff]
  constructor
  · rintro ⟨retired, ⟨hrelative, rfl⟩, complete, ⟨-, rfl⟩, read, hread, retiredRaw, ⟨hraw, rfl⟩,
      completeIds, ⟨hids, rfl⟩, hresult⟩
    rw [filter_withMtimes] at hread
    obtain ⟨hparses, rfl⟩ := (Except.mapM_ok_iff fun _ _ => readManifest_ok_iff).mp hread
    rw [filterMap_read] at hraw hids hresult
    rw [filter_notMem] at hids hresult
    rw [filter_notMem] at hresult
    constructor
    · intro path hpath
      refine ⟨?_, ?_, ?_, ?_⟩
      · exact hrelative _ (List.mem_map_of_mem (List.mem_map_of_mem hpath))
      · intro hskips
        have hunread : path ∈ unread E paths := List.mem_filter.mpr ⟨hpath, by simp [hskips]⟩
        exact hparses _ (List.mem_map_of_mem hunread)
      · intro receipt hreceipt
        have hmem : (path, receipt) ∈ parsedReceipts E paths := mem_parsedReceipts.mpr ⟨hpath, hreceipt⟩
        exact hraw _ (List.mem_map_of_mem hmem)
      · intro receipt hreceipt hactive
        have hmem : (path, receipt) ∈ parsedReceipts E paths := mem_parsedReceipts.mpr ⟨hpath, hreceipt⟩
        exact hids _ (List.mem_map_of_mem (List.mem_filter.mpr ⟨hmem, by simp [hactive]⟩))
    · rw [← Except.ok.inj hresult]
      have hstaged := staged_of_active (E := E) paths
      rw [activeReceipts] at hstaged
      rw [hstaged]
      rfl
  · rintro ⟨hall, rfl⟩
    have hkeys (f : ManifestPath → PyStr) (hf : ∀ path ∈ paths, PyStr.encodable (f path) = true) :
        ∀ key ∈ (withMtimes E paths).map fun p => f p.1, PyStr.encodable key = true := by
      intro key hkey
      obtain ⟨p, hp, rfl⟩ := List.mem_map.mp hkey
      obtain ⟨path, hpath, rfl⟩ := List.mem_map.mp hp
      exact hf path hpath
    have hparses : ∀ p ∈ withMtimes E (unread E paths), ∃ receipt,
        E.parseManifest p.1 = .ok receipt := by
      intro p hp
      obtain ⟨path, hpath, rfl⟩ := List.mem_map.mp hp
      obtain ⟨hmem, hskips⟩ := List.mem_filter.mp hpath
      exact (hall path hmem).parses (by simpa using hskips)
    refine ⟨_, ⟨hkeys _ fun path hpath => (hall path hpath).relative, rfl⟩, _,
      ⟨hkeys _ fun path hpath => encodable_stem (hall path hpath).relative, rfl⟩, _,
      (Except.mapM_ok_iff fun _ _ => readManifest_ok_iff).mpr ⟨by rwa [filter_withMtimes], rfl⟩,
      _, ⟨?_, rfl⟩, _, ⟨?_, rfl⟩, ?_⟩
    · rw [filter_withMtimes, filterMap_read]
      intro key hkey
      obtain ⟨m, hm, rfl⟩ := List.mem_map.mp hkey
      obtain ⟨hpath, hreceipt⟩ := mem_parsedReceipts.mp hm
      exact (hall _ hpath).rawPath _ hreceipt
    · rw [filter_withMtimes, filterMap_read, filter_notMem]
      intro key hkey
      obtain ⟨m, hm, rfl⟩ := List.mem_map.mp hkey
      obtain ⟨hm, hactive⟩ := List.mem_filter.mp hm
      obtain ⟨hpath, hreceipt⟩ := mem_parsedReceipts.mp hm
      exact (hall _ hpath).messageId _ hreceipt (by simpa using hactive)
    · rw [filter_withMtimes, filterMap_read, filter_notMem, filter_notMem]
      have hstaged := staged_of_active (E := E) paths
      rw [activeReceipts] at hstaged
      rw [hstaged]
      rfl

end RapidInbox.Recovery

import RapidInbox.Recovery.FullScanBatch

/-!
# Full and periodic recovery stage the same facts

The full scan cuts its paths into batches, and what it has staged after any of them is a function of
the paths spooled so far: the policies by the fold of the table over the offered snapshots, and the
watermark paths as those with the greatest modification time.  So the cuts do not show in the result.
-/

namespace RapidInbox.Recovery

variable {E : ScanEnvironment} {paths : List ManifestPath}

/-! ## The loop -/

/-- The state of a scan that has spooled the paths `flushed` and has `pending` in its batch. -/
structure Spooled (E : ScanEnvironment) (flushed pending : List ManifestPath) (scan : FullScan) :
    Prop where
  selected : scan.selectedPaths = withMtimes E pending
  watermark : scan.watermarkNs = latestMtime E (flushed ++ pending)
  stagedWatermark : scan.state.fullScanStagedWatermarkNs = latestMtime E flushed
  texts : ∀ text, text ∈ scan.state.fullScanWatermarkPaths ↔
    ∃ path ∈ flushed, (E.mtime path : Int) = latestMtime E flushed ∧ text = E.pathText path
  snapshots : scan.spool.recoveryDomainSnapshots =
    ((offeredSnapshots E flushed).map PolicySnapshot.row).foldl upsertDomainSnapshot []
  stageable : ∀ path ∈ flushed, Stageable E path
  root : flushed ≠ [] → PyStr.encodable E.storageRoot = true

theorem mem_latestPaths {pending : List ManifestPath} {latest : Int} {text : PyStr} :
    text ∈ latestPaths E (withMtimes E pending) latest ↔
      ∃ path ∈ pending, (E.mtime path : Int) = latest ∧ text = E.pathText path := by
  rw [latestPaths, List.mem_map]
  constructor
  · rintro ⟨p, hp, rfl⟩
    obtain ⟨hmem, hlatest⟩ := List.mem_filter.mp hp
    obtain ⟨path, hpath, rfl⟩ := List.mem_map.mp hmem
    exact ⟨path, hpath, by simpa using hlatest, rfl⟩
  · rintro ⟨path, hpath, hlatest, rfl⟩
    exact ⟨(path, E.mtime path), List.mem_filter.mpr ⟨List.mem_map_of_mem hpath, by simpa using hlatest⟩,
      rfl⟩

theorem offeredSnapshots_append (paths more : List ManifestPath) :
    offeredSnapshots E (paths ++ more) = offeredSnapshots E paths ++ offeredSnapshots E more := by
  simp [offeredSnapshots, policyReceipts, stagedReceipts, List.filterMap_append]

theorem encodable_pathText {path : ManifestPath} :
    PyStr.encodable (E.pathText path) = true ↔
      PyStr.encodable E.storageRoot = true ∧ PyStr.encodable path.relative = true := by
  have hslash : PyStr.encodable ManifestPath.slash = true := PyStr.encodable_ofChars _
  rw [ScanEnvironment.pathText, PyStr.encodable_append, PyStr.encodable_append, hslash, Bool.true_and,
    Bool.and_eq_true]

/-- The paths that the scan takes up: those whose file is still there. -/
def scannedPaths (E : ScanEnvironment) (paths : List ManifestPath) : List ManifestPath :=
  paths.filter fun path => (E.stat path).isSome

theorem scannedPaths_cons (path : ManifestPath) (paths : List ManifestPath) :
    scannedPaths E (path :: paths) = scannedPaths E [path] ++ scannedPaths E paths :=
  List.filter_append [path] paths

namespace Spooled

variable {flushed pending : List ManifestPath} {scan scan' : FullScan}

/-- The texts after a batch, from those of the paths before it and those of the batch. -/
theorem mem_texts (h : Spooled E flushed pending scan) (text : PyStr) :
    text ∈ (latestPaths E (withMtimes E pending) (latestMtime E (flushed ++ pending))).foldl insertNew
        (if latestMtime E flushed < latestMtime E (flushed ++ pending) then []
          else scan.state.fullScanWatermarkPaths) ↔
      ∃ path ∈ flushed ++ pending, (E.mtime path : Int) = latestMtime E (flushed ++ pending) ∧
        text = E.pathText path := by
  rw [mem_foldl_insertNew, mem_latestPaths]
  have hmono := latestMtime_mono (E := E) flushed pending
  by_cases hlt : latestMtime E flushed < latestMtime E (flushed ++ pending)
  · rw [if_pos hlt]
    constructor
    · rintro (hnone | ⟨path, hpath, hlatest, rfl⟩)
      · cases hnone
      · exact ⟨path, List.mem_append_right _ hpath, hlatest, rfl⟩
    · rintro ⟨path, hpath, hlatest, rfl⟩
      rcases List.mem_append.mp hpath with hpath | hpath
      · have hle := mtime_le_latest (E := E) hpath
        omega
      · exact .inr ⟨path, hpath, hlatest, rfl⟩
  · rw [if_neg hlt, h.texts, ← Int.le_antisymm hmono (Int.not_lt.mp hlt)]
    constructor
    · rintro (⟨path, hpath, hlatest, rfl⟩ | ⟨path, hpath, hlatest, rfl⟩)
      · exact ⟨path, List.mem_append_left _ hpath, hlatest, rfl⟩
      · exact ⟨path, List.mem_append_right _ hpath, hlatest, rfl⟩
    · rintro ⟨path, hpath, hlatest, rfl⟩
      exact (List.mem_append.mp hpath).imp (fun h => ⟨path, h, hlatest, rfl⟩)
        fun h => ⟨path, h, hlatest, rfl⟩

theorem latest_nonneg (hpending : pending ≠ []) : 0 ≤ latestMtime E (flushed ++ pending) := by
  obtain ⟨path, hpath⟩ := List.exists_mem_of_ne_nil pending hpending
  exact Int.le_trans (Int.natCast_nonneg _) (mtime_le_latest (List.mem_append_right flushed hpath))

/-- A batch that was spooled. -/
theorem flush (h : Spooled E flushed pending scan) (hpending : pending ≠ [])
    (hflush : scan.flush E = .ok scan') : Spooled E (flushed ++ pending) [] scan' := by
  have hstaged : scan.state.fullScanStagedWatermarkNs ≤ latestMtime E (flushed ++ pending) := by
    rw [h.stagedWatermark]
    exact latestMtime_mono flushed pending
  unfold FullScan.flush at hflush
  rw [h.selected, h.watermark, Except.bind_ok_iff] at hflush
  obtain ⟨state, hstate, hflush⟩ := hflush
  obtain ⟨spool, hspool, hscan⟩ := Except.bind_ok_iff.mp hflush
  obtain ⟨htexts, rfl⟩ :=
    (recordFullScanWatermarkPaths_ok_iff (latest_nonneg hpending) hstaged).mp hstate
  obtain ⟨hread, hdocuments, hbind, rfl⟩ := spoolFullScanBatch_ok_iff.mp hspool
  have hpendingStageable : ∀ path ∈ pending, Stageable E path :=
    stageable_iff.mpr ⟨hread, fun m hm => (hdocuments m hm).2, hbind⟩
  rw [← Except.ok.inj hscan]
  refine
    { selected := rfl
      watermark := by rw [List.append_nil]
      stagedWatermark := rfl
      texts := ?_
      snapshots := ?_
      stageable := List.forall_mem_append.mpr ⟨h.stageable, hpendingStageable⟩
      root := ?_ }
  · intro text
    have htext := h.mem_texts text
    rwa [← h.stagedWatermark] at htext
  · dsimp only
    rw [h.snapshots, offeredSnapshots_append, List.map_append, List.foldl_append]
  · intro _
    by_cases hfirst : flushed = []
    · -- the first batch has a path with the latest modification time
      subst hfirst
      obtain ⟨path, hpath, hlatest⟩ := exists_latest (E := E) hpending
      exact (encodable_pathText.mp (htexts _ (mem_latestPaths.mpr ⟨path, hpath, hlatest, rfl⟩))).1
    · exact h.root hfirst

/-- A batch that can be spooled. -/
theorem exists_flush (h : Spooled E flushed pending scan) (hpending : pending ≠ [])
    (hroot : PyStr.encodable E.storageRoot = true) (hstageable : ∀ path ∈ pending, Stageable E path) :
    ∃ scan', scan.flush E = .ok scan' := by
  have hstaged : scan.state.fullScanStagedWatermarkNs ≤ latestMtime E (flushed ++ pending) := by
    rw [h.stagedWatermark]
    exact latestMtime_mono flushed pending
  have htext : ∀ path ∈ pending, PyStr.encodable (E.pathText path) = true := by
    intro path hpath
    exact encodable_pathText.mpr ⟨hroot, (hstageable path hpath).readable.relative⟩
  obtain ⟨hread, hdocuments, hbind⟩ := stageable_iff.mp hstageable
  have htexts : ∀ text ∈ latestPaths E (withMtimes E pending) (latestMtime E (flushed ++ pending)),
      PyStr.encodable text = true := by
    intro text hmem
    obtain ⟨path, hpath, -, rfl⟩ := mem_latestPaths.mp hmem
    exact htext path hpath
  have hrecord : ∃ state, recordFullScanWatermarkPaths E (withMtimes E pending)
      (latestMtime E (flushed ++ pending)) scan.state = .ok state :=
    ⟨_, (recordFullScanWatermarkPaths_ok_iff (latest_nonneg hpending) hstaged).mpr ⟨htexts, rfl⟩⟩
  have hspool : ∃ spool, spoolFullScanBatch E scan.spool (withMtimes E pending) = .ok spool :=
    ⟨_, spoolFullScanBatch_ok_iff.mpr
      ⟨hread, fun m hm => ⟨htext _ (mem_stagedReceipts.mp hm).1, hdocuments m hm⟩, hbind, rfl⟩⟩
  obtain ⟨state, hstate⟩ := hrecord
  obtain ⟨spool, hspool⟩ := hspool
  refine ⟨{ scan with selectedPaths := [], selectedBytes := 0, spool, state }, ?_⟩
  unfold FullScan.flush
  rw [h.selected, h.watermark, hstate, Except.ok_bind, hspool]
  rfl

/-- A batch is spooled if it has become too large. -/
theorem flushIf (h : Spooled E flushed pending scan) {full : Bool} (hfull : full = true → pending ≠ [])
    (hflush : scan.flushIf E full = .ok scan') :
    ∃ flushed' pending', flushed' ++ pending' = flushed ++ pending ∧
      Spooled E flushed' pending' scan' := by
  cases full with
  | true => exact ⟨flushed ++ pending, [], List.append_nil _, h.flush (hfull rfl) hflush⟩
  | false =>
    cases hflush
    exact ⟨flushed, pending, rfl, h⟩

theorem exists_flushIf (h : Spooled E flushed pending scan) {full : Bool}
    (hfull : full = true → pending ≠ []) (hroot : PyStr.encodable E.storageRoot = true)
    (hstageable : ∀ path ∈ pending, Stageable E path) : ∃ scan', scan.flushIf E full = .ok scan' := by
  cases full with
  | true => exact h.exists_flush (hfull rfl) hroot hstageable
  | false => exact ⟨scan, rfl⟩

/-- A path joins the batch. -/
theorem select (h : Spooled E flushed pending scan) {path : ManifestPath} {stat : FileStat}
    (hstat : E.stat path = some stat) : Spooled E flushed (pending ++ [path]) (scan.select path stat) := by
  have hmtime := E.mtime_of_stat hstat
  refine
    { selected := ?_
      watermark := ?_
      stagedWatermark := h.stagedWatermark
      texts := h.texts
      snapshots := h.snapshots
      stageable := h.stageable
      root := h.root }
  · rw [withMtimes, List.map_append, List.map_singleton, hmtime, FullScan.select, h.selected]
    rfl
  · rw [← List.append_assoc, latestMtime_concat, hmtime, FullScan.select, h.watermark]

theorem ne_nil_of_overflows (h : Spooled E flushed pending scan) {B : BatchBounds} {stat : FileStat}
    (hover : scan.overflows B stat = true) : pending ≠ [] := by
  rintro rfl
  rw [FullScan.overflows, h.selected] at hover
  cases hover

/-- One turn of the loop. -/
theorem visit (h : Spooled E flushed pending scan) {B : BatchBounds} {path : ManifestPath}
    (hvisit : scan.visit E B path = .ok scan') :
    ∃ flushed' pending', flushed' ++ pending' = flushed ++ pending ++ scannedPaths E [path] ∧
      Spooled E flushed' pending' scan' := by
  unfold FullScan.visit at hvisit
  cases hstat : E.stat path with
  | none =>
    rw [hstat] at hvisit
    cases hvisit
    exact ⟨flushed, pending, by simp [scannedPaths, hstat], h⟩
  | some stat =>
    rw [hstat] at hvisit
    obtain ⟨scan₁, hfirst, hsecond⟩ := Except.bind_ok_iff.mp hvisit
    obtain ⟨flushed₁, pending₁, heq₁, h₁⟩ := h.flushIf h.ne_nil_of_overflows hfirst
    obtain ⟨flushed₂, pending₂, heq₂, h₂⟩ := (h₁.select hstat).flushIf (fun _ => by simp) hsecond
    refine ⟨flushed₂, pending₂, ?_, h₂⟩
    rw [heq₂, ← List.append_assoc, heq₁]
    simp [scannedPaths, hstat]

theorem exists_visit (h : Spooled E flushed pending scan) {B : BatchBounds} {path : ManifestPath}
    (hroot : PyStr.encodable E.storageRoot = true) (hstageable : ∀ path ∈ pending, Stageable E path)
    (hpath : ∀ other ∈ scannedPaths E [path], Stageable E other) :
    ∃ scan', scan.visit E B path = .ok scan' := by
  unfold FullScan.visit
  cases hstat : E.stat path with
  | none => exact ⟨scan, rfl⟩
  | some stat =>
    dsimp only
    obtain ⟨scan₁, hfirst⟩ := h.exists_flushIf h.ne_nil_of_overflows hroot hstageable
    obtain ⟨flushed₁, pending₁, heq₁, h₁⟩ := h.flushIf h.ne_nil_of_overflows hfirst
    have hpending : ∀ other ∈ pending₁ ++ [path], Stageable E other := by
      intro other hother
      rcases List.mem_append.mp hother with hother | hother
      · have hmem : other ∈ flushed ++ pending := by
          rw [← heq₁]
          exact List.mem_append_right _ hother
        rcases List.mem_append.mp hmem with hmem | hmem
        · exact h.stageable other hmem
        · exact hstageable other hmem
      · obtain rfl := List.mem_singleton.mp hother
        exact hpath other (by simp [scannedPaths, hstat])
    obtain ⟨scan₂, hsecond⟩ :=
      (h₁.select hstat).exists_flushIf (fun _ => by simp) hroot hpending
    refine ⟨scan₂, ?_⟩
    rw [hfirst]
    exact hsecond

theorem start (state : PeriodicState) : Spooled E [] [] (.start state) where
  selected := rfl
  watermark := rfl
  stagedWatermark := rfl
  texts := by
    intro text
    constructor
    · exact nofun
    · rintro ⟨path, hpath, -⟩
      cases hpath
  snapshots := rfl
  stageable := nofun
  root := fun h => absurd rfl h

/-- The whole loop. -/
theorem run (h : Spooled E flushed pending scan) {B : BatchBounds} {paths : List ManifestPath}
    (hrun : paths.foldlM (FullScan.visit E B) scan = .ok scan') :
    ∃ flushed' pending', flushed' ++ pending' = flushed ++ pending ++ scannedPaths E paths ∧
      Spooled E flushed' pending' scan' := by
  induction paths generalizing flushed pending scan with
  | nil =>
    cases hrun
    exact ⟨flushed, pending, by simp [scannedPaths], h⟩
  | cons path paths ih =>
    rw [List.foldlM_cons] at hrun
    obtain ⟨scan₁, hvisit, hrest⟩ := Except.bind_ok_iff.mp hrun
    obtain ⟨flushed₁, pending₁, heq₁, h₁⟩ := h.visit hvisit
    obtain ⟨flushed₂, pending₂, heq₂, h₂⟩ := ih h₁ hrest
    refine ⟨flushed₂, pending₂, ?_, h₂⟩
    rw [heq₂, heq₁, scannedPaths_cons path paths, List.append_assoc]

theorem exists_run (h : Spooled E flushed pending scan) {B : BatchBounds} {paths : List ManifestPath}
    (hroot : PyStr.encodable E.storageRoot = true) (hstageable : ∀ path ∈ pending, Stageable E path)
    (hpaths : ∀ path ∈ scannedPaths E paths, Stageable E path) :
    ∃ scan', paths.foldlM (FullScan.visit E B) scan = .ok scan' := by
  induction paths generalizing flushed pending scan with
  | nil => exact ⟨scan, rfl⟩
  | cons path paths ih =>
    rw [scannedPaths_cons] at hpaths
    obtain ⟨hpath, hpaths⟩ := List.forall_mem_append.mp hpaths
    obtain ⟨scan₁, hvisit⟩ := h.exists_visit hroot hstageable hpath
    obtain ⟨flushed₁, pending₁, heq₁, h₁⟩ := h.visit hvisit
    have hpending : ∀ path ∈ pending₁, Stageable E path := by
      intro other hother
      have hmem : other ∈ flushed ++ pending ++ scannedPaths E [path] := by
        rw [← heq₁]
        exact List.mem_append_right _ hother
      rcases List.mem_append.mp hmem with hmem | hmem
      · exact (List.mem_append.mp hmem).elim (h.stageable other) (hstageable other)
      · exact hpath other hmem
    obtain ⟨scan₂, hrest⟩ := ih h₁ hpending hpaths
    refine ⟨scan₂, ?_⟩
    rw [List.foldlM_cons, hvisit]
    exact hrest

end Spooled

/-! ## The result -/

/-- The scan can stage every file that it takes up, and bind the paths below the storage root. -/
structure StageableScan (E : ScanEnvironment) (paths : List ManifestPath) : Prop where
  root : scannedPaths E paths ≠ [] → PyStr.encodable E.storageRoot = true
  files : ∀ path ∈ scannedPaths E paths, Stageable E path

/-- What a scan that returns has staged. -/
theorem buildFullRecoverySpool_ok {B : BatchBounds} {state : PeriodicState} {spool : FullRecoverySpool}
    {state' : PeriodicState} (h : buildFullRecoverySpool E B paths state = .ok (spool, state')) :
    ∃ scan, Spooled E (scannedPaths E paths) [] scan ∧
      spool = { spool := scan.spool, watermarkNs := scan.watermarkNs } ∧ state' = scan.state := by
  unfold buildFullRecoverySpool at h
  obtain ⟨scan, hrun, h⟩ := Except.bind_ok_iff.mp h
  obtain ⟨last, hlast, h⟩ := Except.bind_ok_iff.mp h
  obtain ⟨flushed, pending, heq, hspooled⟩ := (Spooled.start state).run hrun
  rw [List.append_nil, List.nil_append] at heq
  cases h
  cases hempty : scan.selectedPaths.isEmpty with
  | true =>
    rw [hempty] at hlast
    cases hlast
    rw [hspooled.selected, withMtimes, List.isEmpty_map, List.isEmpty_iff] at hempty
    subst hempty
    rw [List.append_nil] at heq
    exact ⟨scan, heq ▸ hspooled, rfl, rfl⟩
  | false =>
    rw [hempty] at hlast
    rw [hspooled.selected, withMtimes, List.isEmpty_map, List.isEmpty_eq_false_iff] at hempty
    exact ⟨last, heq ▸ hspooled.flush hempty hlast, rfl, rfl⟩

/-- A scan that takes up no file. -/
theorem foldlM_visit_none {B : BatchBounds} {scan : FullScan} (h : scannedPaths E paths = []) :
    paths.foldlM (FullScan.visit E B) scan = .ok scan := by
  induction paths with
  | nil => rfl
  | cons path paths ih =>
    rw [scannedPaths_cons, List.append_eq_nil_iff] at h
    have hnone : E.stat path = none := by simpa [scannedPaths] using h.1
    have hvisit : scan.visit E B path = .ok scan := by
      unfold FullScan.visit
      rw [hnone]
    rw [List.foldlM_cons, hvisit]
    exact ih h.2

theorem exists_buildFullRecoverySpool (h : StageableScan E paths) (B : BatchBounds)
    (state : PeriodicState) : ∃ spool state', buildFullRecoverySpool E B paths state = .ok (spool, state') := by
  by_cases hnone : scannedPaths E paths = []
  · refine ⟨⟨⟨[], []⟩, -1⟩, resetFullScanWatermarkPaths state, ?_⟩
    unfold buildFullRecoverySpool
    rw [foldlM_visit_none hnone]
    rfl
  · have hroot := h.root hnone
    obtain ⟨scan, hrun⟩ := (Spooled.start state).exists_run (B := B) hroot nofun h.files
    obtain ⟨flushed, pending, heq, hspooled⟩ := (Spooled.start state).run hrun
    rw [List.append_nil, List.nil_append] at heq
    have hpending : ∀ path ∈ pending, Stageable E path :=
      fun path hpath => h.files path (heq ▸ List.mem_append_right _ hpath)
    have hfull : (!scan.selectedPaths.isEmpty) = true → pending ≠ [] := by
      rintro hfull rfl
      rw [hspooled.selected] at hfull
      cases hfull
    obtain ⟨last, hlast⟩ := hspooled.exists_flushIf hfull hroot hpending
    refine ⟨{ spool := last.spool, watermarkNs := last.watermarkNs }, last.state, ?_⟩
    unfold buildFullRecoverySpool
    rw [hrun, Except.ok_bind, hlast]
    rfl

/-- `_record_latest_policy_snapshots` over the receipts of a scan. -/
theorem foldlM_recordLatestPolicySnapshots {receipts : List (ManifestPath × RecoveryReceipt)}
    (h : ∀ m ∈ receipts, (E.stat m.1).isSome = true) (latest : LatestSnapshots) :
    receipts.foldlM (recordLatestPolicySnapshots E) latest =
      .ok ((receipts.flatMap (receiptSnapshots E)).foldl recordSnapshot latest) := by
  rw [Except.foldlM_ok_iff (P := fun _ => True)
    (g := fun latest m => (receiptSnapshots E m).foldl recordSnapshot latest), List.foldl_flatMap]
  · exact ⟨fun _ _ => trivial, rfl⟩
  · intro m hm latest latest'
    obtain ⟨stat, hstat⟩ := Option.isSome_iff_exists.mp (h m hm)
    have hmtime := ScanEnvironment.mtime_of_stat hstat
    rw [recordLatestPolicySnapshots, manifestRecoveryOrder, hstat, receiptSnapshots, hmtime,
      List.foldl_map, true_and]
    exact ⟨fun h => (Except.ok.inj h).symm, fun h => congrArg Except.ok h.symm⟩

/-- The watermark paths after a scan. -/
theorem mem_watermarkPaths {B : BatchBounds} {state state' : PeriodicState} {spool : FullRecoverySpool}
    (h : buildFullRecoverySpool E B paths state = .ok (spool, state')) (text : PyStr) :
    text ∈ state'.fullScanWatermarkPaths ↔
      ∃ path ∈ paths, ∃ stat, E.stat path = some stat ∧ (stat.mtimeNs : Int) = spool.watermarkNs ∧
        text = E.pathText path := by
  obtain ⟨scan, hspooled, rfl, rfl⟩ := buildFullRecoverySpool_ok h
  have hwatermark := hspooled.watermark
  rw [List.append_nil] at hwatermark
  rw [hspooled.texts]
  dsimp only
  rw [hwatermark]
  constructor
  · rintro ⟨path, hpath, hlatest, rfl⟩
    obtain ⟨hmem, hsome⟩ := List.mem_filter.mp hpath
    obtain ⟨stat, hstat⟩ := Option.isSome_iff_exists.mp hsome
    exact ⟨path, hmem, stat, hstat, ScanEnvironment.mtime_of_stat hstat ▸ hlatest, rfl⟩
  · rintro ⟨path, hpath, stat, hstat, hlatest, rfl⟩
    refine ⟨path, List.mem_filter.mpr ⟨hpath, by rw [hstat]; rfl⟩, ?_, rfl⟩
    rwa [ScanEnvironment.mtime_of_stat hstat]

/-- The periodic scan goes on from the paths that the full scan has found at its watermark. -/
theorem mem_periodicWatermarkPaths {B : BatchBounds} {state state' : PeriodicState}
    {spool : FullRecoverySpool} (h : buildFullRecoverySpool E B paths state = .ok (spool, state'))
    (text : PyStr) :
    text ∈ (advanceFullPeriodicWatermark spool.watermarkNs state').periodicWatermarkPaths ↔
      ∃ path ∈ paths, ∃ stat, E.stat path = some stat ∧ (stat.mtimeNs : Int) = spool.watermarkNs ∧
        text = E.pathText path := by
  unfold advanceFullPeriodicWatermark
  by_cases hpos : spool.watermarkNs ≥ 0
  · rw [if_pos hpos]
    exact mem_watermarkPaths h text
  · rw [if_neg hpos]
    constructor
    · exact nofun
    · rintro ⟨path, -, stat, -, hlatest, -⟩
      omega

/-- The full scan and the periodic scan agree on a sequence of files.  The scan returns; for each
    root its table has the row of the snapshot that `_record_latest_policy_snapshots` keeps over the
    staged receipts, which is the last of the greatest in recovery order; and the watermark paths are
    those with the modification time that the scan returns. -/
def StagesLatest (E : ScanEnvironment) (B : BatchBounds) (paths : List ManifestPath)
    (state : PeriodicState) : Prop :=
  ∃ spool state' latest, buildFullRecoverySpool E B paths state = .ok (spool, state') ∧
    (policyReceipts E (scannedPaths E paths)).foldlM (recordLatestPolicySnapshots E) [] = .ok latest ∧
    (∀ root, spool.spool.snapshot? root = (latest.get? root).map PolicySnapshot.row) ∧
    (∀ root snapshot, latest.get? root = some snapshot ↔
      LastGreatest.IsLast PolicySnapshot.rootDomainAscii snapshotLe root
        (offeredSnapshots E (scannedPaths E paths)) snapshot) ∧
    ∀ text, text ∈ state'.fullScanWatermarkPaths ↔
      ∃ path ∈ paths, ∃ stat, E.stat path = some stat ∧ (stat.mtimeNs : Int) = spool.watermarkNs ∧
        text = E.pathText path

/-- However the bounds cut the scan into batches, it stages what the periodic scan keeps, exactly
    when the values that it stages can be bound to its statements. -/
theorem full_scan_stages_latest (E : ScanEnvironment) (B : BatchBounds) (paths : List ManifestPath)
    (state : PeriodicState) : StagesLatest E B paths state ↔ StageableScan E paths := by
  constructor
  · rintro ⟨spool, state', -, hbuild, -⟩
    obtain ⟨scan, hspooled, -⟩ := buildFullRecoverySpool_ok hbuild
    exact ⟨hspooled.root, hspooled.stageable⟩
  · intro hstageable
    obtain ⟨spool, state', hbuild⟩ := exists_buildFullRecoverySpool hstageable B state
    obtain ⟨scan, hspooled, rfl, rfl⟩ := buildFullRecoverySpool_ok hbuild
    have hfiles : ∀ m ∈ policyReceipts E (scannedPaths E paths), (E.stat m.1).isSome = true := by
      intro m hm
      have hpath := (mem_stagedReceipts.mp (List.mem_filter.mp hm).1).1
      exact (List.mem_filter.mp hpath).2
    refine ⟨_, _, _, hbuild, foldlM_recordLatestPolicySnapshots hfiles [], ?_, ?_, ?_⟩
    · intro root
      rw [SpoolTables.snapshot?, hspooled.snapshots]
      exact find?_row_eq _ root
    · intro root snapshot
      rw [LatestSnapshots.get?_foldl_recordSnapshot]
      exact LastGreatest.kept_eq_some_iff
    · exact mem_watermarkPaths hbuild

/-- A valid receipt whose `recovery_order_ns` is one more than SQLite can hold. -/
def overflowingReceipt : PyJson :=
  let text (s : String) : PyJson := .str (PyStr.ofChars s.toList)
  let object (fields : List (String × PyJson)) : PyJson :=
    .dict (fields.map fun field => (PyStr.ofChars field.1.toList, field.2))
  object [("message_id", text "msg"), ("received_at", text "2026-06-11T00:00:00Z"),
    ("raw_path", text "raw/2026/06/11/msg.eml"), ("raw_sha256", text ""), ("raw_size_bytes", .int 1),
    ("recovery_order_ns", .int (2 ^ 63)),
    ("recipients", .list [object [("rcpt_to", text "u@example.com"), ("domain_id", .int 1),
      ("domain_ascii", text "example.com"), ("root_domain_ascii", text "example.com"),
      ("local_part_canonical", text "u"), ("address_canonical", text "u@example.com"),
      ("domain_policy", object [("root_domain_unicode", text "example.com"),
        ("accept_exact", .bool true), ("accept_subdomains", .bool false),
        ("public_web_enabled", .bool false), ("public_api_enabled", .bool false),
        ("is_active", .bool true), ("is_hidden", .bool false), ("plus_addressing_mode", text "keep"),
        ("local_part_case_sensitive", .bool false), ("max_message_size_bytes", .int 1000),
        ("retention_days", .null), ("dns_status", text "ok")])]])]

/-- One file with that receipt. -/
def overflowingScan : ScanEnvironment where
  storageRoot := PyStr.ofChars "/data".toList
  stat _ := some ⟨1, 1000⟩
  read _ := some overflowingReceipt
  resolves _ := true
  fileGcTask _ := false
  completeMessage _ := false
  activeAccept _ := false
  stable _ := true
  rawMatches _ := true

def overflowingPath : ManifestPath where
  directory := PyStr.ofChars "manifests/2026/06/11".toList
  fileName := PyStr.ofChars "msg.json".toList

/-- The full scan raises, and the periodic scan keeps the snapshot. -/
theorem full_scan_overflows :
    ¬StagesLatest overflowingScan fullScanBounds [overflowingPath] ⟨-1, [], -1, []⟩ ∧
      ((policyReceipts overflowingScan [overflowingPath]).foldlM
        (recordLatestPolicySnapshots overflowingScan) []).toOption.map List.length = some 1 := by
  refine ⟨?_, by decide +kernel⟩
  rintro ⟨spool, state', latest, hbuild, -⟩
  have hraises : (buildFullRecoverySpool overflowingScan fullScanBounds [overflowingPath]
      ⟨-1, [], -1, []⟩).toOption.isNone = true := by decide +kernel
  rw [hbuild] at hraises
  cases hraises

end RapidInbox.Recovery

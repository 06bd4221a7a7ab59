import RapidInbox.Lib.Result
import RapidInbox.Files.ArtifactSweep

/-!
# What the checks of the sweep protect

A candidate that comes through the checks of a sweep is in no column, its message is not being
accepted, and every record of its message that the checks come by can be read and does not name it.
-/

namespace RapidInbox.Files

variable {t : StorageTree} {path : List PyStr} {storagePath messageId : PyStr} {candidatePaths : List PyStr}

/-! ## References -/

theorem slash_notMem_of_mem_splitOn {s part : PyStr} (h : part ∈ s.splitOn slash) : slash ∉ part := by
  induction s generalizing part with
  | nil =>
    rw [List.splitOn_nil, List.mem_singleton] at h
    rw [h]
    exact List.not_mem_nil
  | cons c s ih =>
    rw [List.splitOn_cons_eq_if_modifyHead] at h
    split at h
    · rcases List.mem_cons.mp h with rfl | h
      · exact List.not_mem_nil
      · exact ih h
    · rename_i hc
      cases hsplit : s.splitOn slash with
      | nil => exact absurd hsplit (List.splitOn_ne_nil _ _)
      | cons first rest =>
        rw [hsplit, List.modifyHead_cons] at h
        rcases List.mem_cons.mp h with rfl | h
        · refine List.not_mem_cons_of_ne_of_not_mem ?_ (ih (by rw [hsplit]; exact List.mem_cons_self))
          rintro rfl
          simp at hc
        · exact ih (by rw [hsplit]; exact List.mem_cons_of_mem _ h)

/-- A path has the parts of its normal form. -/
theorem pathParts_asPosix (h : pathParts storagePath ≠ []) :
    pathParts (asPosix (pathParts storagePath)) = pathParts storagePath := by
  have hparts : ∀ part ∈ pathParts storagePath, slash ∉ part :=
    fun part hpart => slash_notMem_of_mem_splitOn (List.mem_of_mem_filter hpart)
  have hempty : ¬(pathParts storagePath).isEmpty = true := by
    rw [List.isEmpty_iff]
    exact h
  rw [asPosix, if_neg hempty]
  generalize hp : pathParts storagePath = parts at *
  rw [pathParts, List.splitOn_intercalate slash hparts h, List.filter_eq_self]
  intro part hpart
  rw [← hp] at hpart
  exact (List.mem_filter.mp hpart).2

/-- A record names an artifact. -/
def References (payload : PyDict) (storagePath : PyStr) : Prop :=
  ∃ path, PyJson.str path ∈ referenceValues payload ∧ isAbsolute path = false ∧
    pathParts path = pathParts storagePath

theorem SweepCandidate.parts_spec {categories : List PyStr} (candidate : SweepCandidate categories) :
    2 ≤ (pathParts candidate.storagePath).length ∧ dotDot ∉ pathParts candidate.storagePath := by
  have hvalid := candidate.valid
  unfold storageParts at hvalid
  split at hvalid
  · cases hvalid
  · split at hvalid
    · cases hvalid
    · rename_i hparts
      rw [Bool.or_eq_true, not_or] at hparts
      obtain ⟨hlength, hdots⟩ := hparts
      refine ⟨Nat.le_of_not_lt fun h => hlength (decide_eq_true h), fun h => hdots ?_⟩
      simpa using h

theorem mem_references {categories : List PyStr} {candidate : SweepCandidate categories}
    {payload : PyDict} :
    candidate.storagePath ∈ (referenceValues payload).filterMap artifactReference ↔
      References payload candidate.storagePath := by
  obtain ⟨hlength, hdots⟩ := candidate.parts_spec
  rw [List.mem_filterMap]
  constructor
  · rintro ⟨value, hvalue, href⟩
    unfold artifactReference at href
    split at href
    · rename_i path
      split at href
      · cases href
      · rename_i hpath
        rw [Option.some_inj] at href
        simp only [Bool.or_eq_true, not_or, Bool.not_eq_true] at hpath
        refine ⟨path, hvalue, hpath.1.2, ?_⟩
        by_cases hnil : pathParts path = []
        · rw [← href, hnil] at hlength
          exact absurd hlength (by decide)
        · rw [← href, pathParts_asPosix hnil]
    · cases href
  · rintro ⟨path, hpath, habsolute, hparts⟩
    refine ⟨_, hpath, ?_⟩
    have hnonempty : path.isEmpty = false := by
      cases path with
      | nil =>
        rw [← hparts] at hlength
        exact absurd hlength (by decide)
      | cons c path => rfl
    have hcontains : (pathParts path).contains dotDot = false := by
      rw [hparts]
      simpa using hdots
    rw [artifactReference, hnonempty, habsolute, hcontains, hparts, candidate.canonical]
    rfl

/-! ## Reading a record -/

/-- The process can read the record at a path. -/
structure Readable (t : StorageTree) (path : List PyStr) (payload : PyDict) : Prop where
  parents : t.openDir isFileName path.dropLast = .ok ()
  fileName : isFileName (path.getLastD []) = true
  content : ∃ data, t.get? path = some (.file data) ∧ data.signature.size ≤ maxManifestSweepBytes ∧
    data.content = some (.dict payload)

theorem readManifestArtifactReferences_ok {references : List PyStr}
    (h : readManifestArtifactReferences t path = .ok references) :
    ∃ payload, Readable t path payload ∧
      references = (referenceValues payload).filterMap artifactReference := by
  obtain ⟨_, hparents, h⟩ := Except.bind_ok_iff.mp h
  obtain ⟨entry, hentry, h⟩ := Except.bind_ok_iff.mp h
  have hopen : t.openDir isFileName path.dropLast = .ok () := by
    cases hdir : t.openDir isFileName path.dropLast with
    | error error =>
      rw [hdir] at hparents
      cases hparents
    | ok => rfl
  unfold statEntry at hentry
  split at hentry
  · rename_i hname
    cases hentry
    split at h
    · cases h
    · rename_i data hdata
      split at h
      · rename_i hsize
        split at h
        · rename_i payload hpayload
          cases h
          exact ⟨payload, ⟨hopen, hname, data, hdata, hsize, hpayload⟩, rfl⟩
        · cases h
      · cases h
    · cases h
    · cases h
  · cases hentry

/-- A record that is there is not found missing. -/
theorem read_ne_missing {e : FileTree PyStr FileData} (h : t.get? path = some e) :
    readManifestArtifactReferences t path ≠ .error (.cannotOpen .missing) := by
  have hparents := FileTree.openDir_ne_missing isFileName h
  unfold readManifestArtifactReferences
  cases hdir : t.openDir isFileName path.dropLast with
  | error error =>
    rw [hdir] at hparents
    intro hread
    cases hread
    exact hparents rfl
  | ok =>
    rw [statEntry]
    split
    · rw [h]
      cases e with
      | file data =>
        intro hread
        change (if _ then _ else _) = _ at hread
        split at hread
        · split at hread
          · cases hread
          · cases hread
        · cases hread
      | dir isOpen names child => exact nofun
      | link toDirectory => exact nofun
      | special => exact nofun
    · exact nofun

/-! ## The database -/

/-- Every element of a list is in one of its slices. -/
theorem mem_chunks {n : Nat} (hn : 0 < n) {xs : List PyStr} {x : PyStr} (h : x ∈ xs) :
    ∃ chunk ∈ chunks n xs, x ∈ chunk := by
  obtain ⟨i, hi, rfl⟩ := List.getElem_of_mem h
  have hdiv : i / n < (xs.length + n - 1) / n := by
    rw [Nat.div_lt_iff_lt_mul hn]
    have := Nat.div_add_mod (xs.length + n - 1) n
    have := Nat.mod_lt (xs.length + n - 1) hn
    rw [Nat.mul_comm]
    omega
  refine ⟨_, List.mem_map.mpr ⟨i / n, List.mem_range.mpr hdiv, rfl⟩, ?_⟩
  have hmod : i % n < n := Nat.mod_lt i hn
  have hsplit : n * (i / n) + i % n = i := Nat.div_add_mod i n
  refine List.mem_of_getElem? (i := i % n) ?_
  rw [List.getElem?_take_of_lt hmod, List.getElem?_drop, hsplit, List.getElem?_eq_getElem hi]

theorem mem_mapM {α β : Type} {f : α → Option β} {xs : List α} {ys : List β} (h : xs.mapM f = some ys)
    {x : α} (hx : x ∈ xs) : ∃ y ∈ ys, f x = some y := by
  induction xs generalizing ys with
  | nil => cases hx
  | cons x' xs ih =>
    rw [List.mapM_cons, Option.bind_eq_bind, Option.bind_eq_some_iff] at h
    obtain ⟨y, hy, h⟩ := h
    rw [Option.bind_eq_bind, Option.bind_eq_some_iff] at h
    obtain ⟨ys', hys, h⟩ := h
    cases h
    rcases List.mem_cons.mp hx with rfl | hx
    · exact ⟨y, List.mem_cons_self, hy⟩
    · obtain ⟨y', hy', hfx⟩ := ih hys hx
      exact ⟨y', List.mem_cons_of_mem _ hy', hfx⟩

/-- The query finds every candidate that is in a column. -/
theorem mem_databaseArtifactReferences {db : ArtifactTables} {found column : List PyStr}
    (h : databaseArtifactReferences db candidatePaths = some found) (hpath : storagePath ∈ candidatePaths)
    (hcolumn : column ∈ db.columns) (hmem : storagePath ∈ column) : storagePath ∈ found := by
  obtain ⟨lists, hlists, hfound⟩ := Option.bind_eq_some_iff.mp h
  cases hfound
  obtain ⟨chunk, hchunk, hin⟩ :=
    mem_chunks (n := 400) (by decide) ((List.mem_insertionSort fun a b => sortsBefore a b).mpr hpath)
  obtain ⟨rows, hrows, hchunkRows⟩ := mem_mapM hlists hchunk
  refine List.mem_flatten.mpr ⟨rows, hrows, ?_⟩
  split at hchunkRows
  · cases hchunkRows
    exact List.mem_flatMap.mpr ⟨column, hcolumn, List.mem_filter.mpr ⟨hmem, by simpa using hin⟩⟩
  · cases hchunkRows

/-! ## Records -/

/-- The record at a path can be read and does not name the artifact. -/
def Clears (t : StorageTree) (path : List PyStr) (storagePath : PyStr) : Prop :=
  ∃ payload, Readable t path payload ∧ ¬References payload storagePath

variable {categories : List PyStr} {candidate : SweepCandidate categories}

theorem clears_of_notMem {associated : List PyStr} (hpath : candidate.storagePath ∈ candidatePaths)
    (hassociated : candidate.storagePath ∈ associated)
    (h : candidate.storagePath ∉ protectedBy t candidatePaths path associated) :
    Clears t path candidate.storagePath := by
  unfold protectedBy at h
  cases hread : readManifestArtifactReferences t path with
  | error error =>
    rw [hread] at h
    exact absurd hassociated h
  | ok references =>
    rw [hread] at h
    obtain ⟨payload, hreadable, rfl⟩ := readManifestArtifactReferences_ok hread
    refine ⟨payload, hreadable, fun hnames => h (List.mem_filter.mpr ⟨hpath, ?_⟩)⟩
    simpa using mem_references.mpr hnames

theorem mem_pathsOf : storagePath ∈ pathsOf candidatePaths messageId ↔
    storagePath ∈ candidatePaths ∧ artifactMessageId storagePath = some messageId := by
  rw [pathsOf, List.mem_filter, decide_eq_true_iff]

/-- Quarantine records that the walk comes by. -/
theorem clears_of_quarantine (hpath : candidate.storagePath ∈ candidatePaths)
    (hid : artifactMessageId candidate.storagePath = some messageId)
    (hwalk : path ∈ walkCategory t quarantine)
    (hname : isQuarantineName messageId (path.getLastD []) = true)
    (h : candidate.storagePath ∉ quarantineArtifactReferences t candidatePaths) :
    Clears t path candidate.storagePath := by
  let messageIds := (candidatePaths.filterMap artifactMessageId).dedup
  let associated := messageIds.filter fun messageId => isQuarantineName messageId (path.getLastD [])
  have hmessage : messageId ∈ associated :=
    List.mem_filter.mpr
      ⟨List.mem_dedup.mpr (List.mem_filterMap.mpr ⟨_, hpath, hid⟩), hname⟩
  have hrecord : (path, associated) ∈ matchingQuarantinePaths t messageIds := by
    refine List.mem_filterMap.mpr ⟨path, hwalk, ?_⟩
    have hnonempty : ¬associated.isEmpty = true := by
      rw [List.isEmpty_iff]
      exact List.ne_nil_of_mem hmessage
    exact if_neg hnonempty
  refine clears_of_notMem hpath ?_ fun hprotected => h (List.mem_flatMap.mpr ⟨_, hrecord, hprotected⟩)
  exact List.mem_flatMap.mpr ⟨messageId, hmessage, mem_pathsOf.mpr ⟨hpath, hid⟩⟩

theorem clears_of_manifestCandidate {associated : List PyStr} {e : FileTree PyStr FileData}
    (hpath : candidate.storagePath ∈ candidatePaths)
    (hmanifest : (path, associated) ∈ manifestCandidates t candidatePaths)
    (hassociated : candidate.storagePath ∈ associated) (hrecord : t.get? path = some e)
    (h : candidate.storagePath ∉ manifestArtifactReferences t candidatePaths) :
    Clears t path candidate.storagePath := by
  refine clears_of_notMem hpath hassociated fun hprotected =>
    h (List.mem_flatMap.mpr ⟨_, hmanifest, ?_⟩)
  rw [if_neg (read_ne_missing hrecord)]
  exact hprotected

/-- The manifest in the date directory. -/
theorem clears_of_datedManifest {e : FileTree PyStr FileData}
    (hpath : candidate.storagePath ∈ candidatePaths)
    (hid : artifactMessageId candidate.storagePath = some messageId)
    (hdated : datedManifestPath candidate.storagePath messageId = some path)
    (hrecord : t.get? path = some e)
    (h : candidate.storagePath ∉ manifestArtifactReferences t candidatePaths) :
    Clears t path candidate.storagePath := by
  have hmanifest : (path, [candidate.storagePath]) ∈ manifestCandidates t candidatePaths := by
    refine List.mem_append_left _ (List.mem_filterMap.mpr ⟨_, hpath, ?_⟩)
    rw [hid, Option.bind_some, hdated]
    rfl
  exact clears_of_manifestCandidate hpath hmanifest List.mem_cons_self hrecord h

theorem mem_matchManifests {paths : List (List PyStr)} {messageIds : List PyStr}
    (h : (path, messageId) ∈ matchManifests paths messageIds) :
    path ∈ paths ∧ manifestName messageId = path.getLastD [] := by
  induction paths generalizing messageIds with
  | nil => cases h
  | cons first paths ih =>
    rw [matchManifests] at h
    split at h
    · rename_i found hfound
      rcases List.mem_cons.mp h with heq | h
      · cases heq
        exact ⟨List.mem_cons_self, by simpa using List.find?_some hfound⟩
      · exact (ih h).imp_left (List.mem_cons_of_mem _)
    · exact (ih h).imp_left (List.mem_cons_of_mem _)

theorem manifestName_inj {other : PyStr} (h : manifestName messageId = manifestName other) :
    messageId = other :=
  List.append_cancel_right h

/-- A manifest is found for every message that has one. -/
theorem exists_mem_matchManifests {paths : List (List PyStr)} {messageIds : List PyStr}
    (hmessage : messageId ∈ messageIds) (hpath : path ∈ paths)
    (hname : manifestName messageId = path.getLastD []) :
    ∃ found, (found, messageId) ∈ matchManifests paths messageIds := by
  induction paths generalizing messageIds with
  | nil => cases hpath
  | cons first paths ih =>
    rw [matchManifests]
    split
    · rename_i found hfound
      have hfoundName : manifestName found = first.getLastD [] := by
        simpa using List.find?_some hfound
      by_cases heq : found = messageId
      · rw [heq]
        exact ⟨first, List.mem_cons_self⟩
      · have hrest : path ∈ paths := by
          rcases List.mem_cons.mp hpath with rfl | hrest
          · exact absurd (manifestName_inj (hfoundName.trans hname.symm)) heq
          · exact hrest
        have hkept : messageId ∈ messageIds.filter (· ≠ found) :=
          List.mem_filter.mpr ⟨hmessage, decide_eq_true (Ne.symm heq)⟩
        obtain ⟨other, hother⟩ := ih hkept hrest
        exact ⟨other, List.mem_cons_of_mem _ hother⟩
    · rename_i hnone
      refine ih hmessage ?_
      rcases List.mem_cons.mp hpath with rfl | hrest
      · exact absurd hname (by simpa using List.find?_eq_none.mp hnone messageId hmessage)
      · exact hrest

/-- The manifest of an attachment, where a walk comes by no other with its name. -/
theorem clears_of_walkedManifest (hpath : candidate.storagePath ∈ candidatePaths)
    (hattachment : (pathParts candidate.storagePath).head? = some attachments)
    (hid : artifactMessageId candidate.storagePath = some messageId)
    (hwalk : path ∈ walkCategory t manifests) (hname : manifestName messageId = path.getLastD [])
    (hone : ∀ other ∈ walkCategory t manifests, manifestName messageId = other.getLastD [] →
      other = path)
    {e : FileTree PyStr FileData} (hrecord : t.get? path = some e)
    (h : candidate.storagePath ∉ manifestArtifactReferences t candidatePaths) :
    Clears t path candidate.storagePath := by
  let messageIds := ((candidatePaths.filter fun storagePath =>
    (pathParts storagePath).head? = some attachments).filterMap artifactMessageId).dedup
  have hmessage : messageId ∈ messageIds :=
    List.mem_dedup.mpr (List.mem_filterMap.mpr
      ⟨_, List.mem_filter.mpr ⟨hpath, by simpa using hattachment⟩, hid⟩)
  obtain ⟨found, hfound⟩ := exists_mem_matchManifests hmessage hwalk hname
  obtain ⟨hfoundWalk, hfoundName⟩ := mem_matchManifests hfound
  obtain rfl := hone found hfoundWalk hfoundName
  have hnonempty : ¬messageIds.isEmpty = true := by
    rw [List.isEmpty_iff]
    exact List.ne_nil_of_mem hmessage
  have hmatching : (found, messageId) ∈ matchingManifestPaths t messageIds := by
    unfold matchingManifestPaths
    rw [if_neg hnonempty]
    exact hfound
  have hmanifest : (found, pathsOf candidatePaths messageId) ∈ manifestCandidates t candidatePaths :=
    List.mem_append_right _ (List.mem_map.mpr ⟨(found, messageId), hmatching, rfl⟩)
  exact clears_of_manifestCandidate hpath hmanifest (mem_pathsOf.mpr ⟨hpath, hid⟩) hrecord h

end RapidInbox.Files

import RapidInbox.Files.SweepProtection

/-!
# The sweep spares what is recorded

The walks of a sweep pass silently over a directory that they cannot list, and over a link to a
directory.  A record there protects nothing; but for such records, the sweep deletes an artifact only
if nothing refers to it.
-/

namespace RapidInbox.Files

variable {removable : List PyStr → Bool} {t t' : StorageTree} {path : List PyStr}
  {storagePath messageId : PyStr} {categories : List PyStr} {candidate other : SweepCandidate categories}
  {candidates : List (SweepCandidate categories)} {isProtected : PyStr → Bool}

/-! ## One file -/

/-- The file of a candidate can be reached and removed, and is the one that was listed. -/
structure Unchanged (removable : List PyStr → Bool) (t : StorageTree)
    (candidate : SweepCandidate categories) : Prop where
  parents : t.openDir isFileName (pathParts candidate.storagePath).dropLast = .ok ()
  fileName : isFileName ((pathParts candidate.storagePath).getLastD []) = true
  file : ∃ data, t.get? (pathParts candidate.storagePath) = some (.file data) ∧
    data.signature = candidate.statSignature
  permitted : removable (pathParts candidate.storagePath) = true

theorem safeUnlinkSweepCandidate_eq_some :
    safeUnlinkSweepCandidate removable t candidate = .ok (some t') ↔
      Unchanged removable t candidate ∧ t' = t.remove (pathParts candidate.storagePath) := by
  constructor
  · intro h
    obtain ⟨parts, hparts, h⟩ := Except.bind_ok_iff.mp h
    obtain ⟨entry, hentry, h⟩ := Except.bind_ok_iff.mp h
    obtain ⟨parts', hparts', hopen⟩ := Except.bind_ok_iff.mp hparts
    rw [candidate.valid] at hparts'
    cases hparts'
    obtain ⟨_, hopen, hreturn⟩ := Except.bind_ok_iff.mp hopen
    cases hreturn
    have hparents : t.openDir isFileName (pathParts candidate.storagePath).dropLast = .ok () := by
      cases hdir : t.openDir isFileName (pathParts candidate.storagePath).dropLast with
      | error error =>
        rw [hdir] at hopen
        cases hopen
      | ok => rfl
    unfold statEntry at hentry
    split at hentry
    · rename_i hname
      cases hentry
      split at h
      · rename_i data hdata
        split at h
        · cases h
        · rename_i hsignature
          rw [not_not] at hsignature
          split at h
          · rename_i hremovable
            cases h
            exact ⟨⟨hparents, hname, ⟨data, hdata, hsignature⟩, hremovable⟩, rfl⟩
          · cases h
      · cases h
    · cases hentry
  · rintro ⟨⟨hparents, hname, ⟨data, hdata, hsignature⟩, hremovable⟩, rfl⟩
    have hopen : openStorageParentNoFollow t candidate.storagePath =
        .ok (pathParts candidate.storagePath) := by
      rw [openStorageParentNoFollow, candidate.valid, Except.ok_bind, hparents]
      rfl
    have hentry : statEntry t (pathParts candidate.storagePath) = .ok (some (.file data)) := by
      rw [statEntry, if_pos hname, hdata]
    rw [safeUnlinkSweepCandidate, hopen, Except.ok_bind, hentry, Except.ok_bind]
    exact (if_neg (not_not.mpr hsignature)).trans (if_pos hremovable)

theorem parts_ne_nil (candidate : SweepCandidate categories) : pathParts candidate.storagePath ≠ [] := by
  intro h
  have hlength := candidate.parts_spec.1
  rw [h] at hlength
  exact absurd hlength (by decide)

/-- The deletion of one candidate leaves the others as they are. -/
theorem unchanged_remove (h : Unchanged removable t candidate) (hne : other ≠ candidate) :
    Unchanged removable (t.remove (pathParts candidate.storagePath)) other ↔
      Unchanged removable t other := by
  obtain ⟨data, hdata, hsignature⟩ := h.file
  by_cases hparts : pathParts other.storagePath = pathParts candidate.storagePath
  · constructor
    · rintro ⟨-, -, ⟨data', hdata', -⟩, -⟩
      rw [hparts, FileTree.get?_remove_self (parts_ne_nil candidate)] at hdata'
      cases hdata'
    · rintro ⟨-, -, ⟨data', hdata', hsignature'⟩, -⟩
      rw [hparts, hdata] at hdata'
      cases hdata'
      refine absurd (SweepCandidate.ext ?_ (hsignature'.symm.trans hsignature)) hne
      rw [← other.canonical, hparts, candidate.canonical]
  · constructor
    · rintro ⟨hparents, hname, ⟨data', hdata', hsignature'⟩, hremovable⟩
      exact ⟨(FileTree.openDir_remove hdata).mp hparents, hname,
        ⟨data', FileTree.get?_of_remove hdata' rfl, hsignature'⟩, hremovable⟩
    · rintro ⟨hparents, hname, ⟨data', hdata', hsignature'⟩, hremovable⟩
      exact ⟨(FileTree.openDir_remove hdata).mpr hparents, hname,
        ⟨data', FileTree.get?_remove_of_ne hdata hdata' rfl hparts, hsignature'⟩, hremovable⟩

/-! ## A loop over candidates -/

/-- The loop deletes the candidates that are not protected and are the files that were listed. -/
theorem mem_unlinked :
    candidate ∈ (sweepCandidates removable isProtected t candidates).unlinked ↔
      candidate ∈ candidates ∧ isProtected candidate.storagePath = false ∧
        Unchanged removable t candidate := by
  induction candidates generalizing t with
  | nil => simp [sweepCandidates]
  | cons first candidates ih =>
    have hskip (hfirst : ¬(isProtected first.storagePath = false ∧ Unchanged removable t first)) :
        (candidate ∈ candidates ∧ isProtected candidate.storagePath = false ∧
            Unchanged removable t candidate) ↔
          candidate ∈ first :: candidates ∧ isProtected candidate.storagePath = false ∧
            Unchanged removable t candidate := by
      constructor
      · exact fun h => ⟨List.mem_cons_of_mem _ h.1, h.2⟩
      · rintro ⟨hmem, h⟩
        rcases List.mem_cons.mp hmem with rfl | hmem
        · exact absurd h hfirst
        · exact ⟨hmem, h⟩
    rw [sweepCandidates]
    split
    · rename_i hprotected
      rw [ih, hskip fun h => by rw [h.1] at hprotected; cases hprotected]
    · rename_i hprotected
      rw [Bool.not_eq_true] at hprotected
      split
      · rename_i t' hunlink
        obtain ⟨hfirst, rfl⟩ := safeUnlinkSweepCandidate_eq_some.mp hunlink
        rw [List.mem_cons, ih, List.mem_cons]
        by_cases heq : candidate = first
        · subst heq
          simp [hprotected, hfirst]
        · rw [unchanged_remove hfirst heq]
          simp [heq]
      · rename_i hunlink
        rw [ih, hskip]
        rintro ⟨-, hfirst⟩
        rw [safeUnlinkSweepCandidate_eq_some.mpr ⟨hfirst, rfl⟩] at hunlink
        cases hunlink
      · rename_i hunlink
        rw [ih, hskip]
        rintro ⟨-, hfirst⟩
        rw [safeUnlinkSweepCandidate_eq_some.mpr ⟨hfirst, rfl⟩] at hunlink
        cases hunlink

/-- The loop leaves no new file. -/
theorem get?_of_sweepCandidates {e : FileTree PyStr FileData}
    (h : (sweepCandidates removable isProtected t candidates).tree.get? path = some e)
    (hdir : e.isDir = false) :
    t.get? path = some e := by
  induction candidates generalizing t with
  | nil => exact h
  | cons first candidates ih =>
    rw [sweepCandidates] at h
    split at h
    · exact ih h
    · split at h
      · rename_i hunlink
        obtain ⟨-, rfl⟩ := safeUnlinkSweepCandidate_eq_some.mp hunlink
        exact FileTree.get?_of_remove (ih h) hdir
      · exact ih h
      · exact ih h

/-! ## Records -/

/-- Something at a path that is no directory. -/
def IsRecord (t : StorageTree) (path : List PyStr) : Prop := ∃ e, t.get? path = some e ∧ e.isDir = false

/-- A manifest that has the name of a message. -/
structure ManifestOf (messageId : PyStr) (path : List PyStr) : Prop where
  category : path.head? = some manifests
  below : 2 ≤ path.length
  name : manifestName messageId = path.getLastD []

/-- A quarantine record that has the name of a message. -/
structure QuarantineRecordOf (messageId : PyStr) (path : List PyStr) : Prop where
  category : path.head? = some quarantine
  below : 2 ≤ path.length
  name : isQuarantineName messageId (path.getLastD []) = true

theorem mem_walkCategory {category : PyStr} (hcategory : path.head? = some category)
    (hbelow : 2 ≤ path.length) (hrecord : IsRecord t path) (hshown : ¬t.Hidden path) :
    path ∈ walkCategory t category := by
  obtain ⟨e, he, hdir⟩ := hrecord
  cases path with
  | nil => cases hcategory
  | cons first path =>
    cases hcategory
    obtain ⟨isOpen, names, child, rfl, hname, hchild⟩ := FileTree.dir_of_get?_cons he
    rw [FileTree.hidden_cons hname, not_or] at hshown
    have hpath : path ≠ [] := List.ne_nil_of_length_pos (Nat.lt_of_succ_lt_succ hbelow)
    have hwalk := FileTree.mem_walkFiles hchild hdir hpath hshown.2
    rw [walkCategory, FileTree.get?, if_pos hname, FileTree.get?_nil]
    cases hdirectory : child category with
    | dir isOpen names child =>
      rw [hdirectory] at hwalk
      exact List.mem_map.mpr ⟨path, hwalk, rfl⟩
    | _ =>
      rw [hdirectory] at hwalk
      cases hwalk

theorem of_mem_walkCategory {category : PyStr} (h : path ∈ walkCategory t category) :
    path.head? = some category ∧ 2 ≤ path.length ∧ IsRecord t path := by
  unfold walkCategory at h
  split at h
  · rename_i isOpen names child hcategory
    obtain ⟨rest, hrest, rfl⟩ := List.mem_map.mp h
    obtain ⟨e, he, hdir⟩ := FileTree.get?_of_mem_walkFiles hrest
    obtain ⟨_, _, _, rfl, hname, hchild⟩ := FileTree.dir_of_get?_cons hcategory
    rw [FileTree.get?_nil, Option.some_inj] at hchild
    refine ⟨rfl, ?_, e, FileTree.get?_dir_cons_of_mem hname ?_, hdir⟩
    · cases rest with
      | nil =>
        rw [FileTree.get?_nil, Option.some_inj] at he
        subst he
        cases hdir
      | cons name rest => simp
    · rw [hchild]
      exact he
  · cases h

/-! ## A sweep -/

variable {db : ArtifactTables} {activeMessageIds : List PyStr}
  {quarantineCandidates : List (SweepCandidate [quarantine])}
  {orphanCandidates : List (SweepCandidate orphanCategories)}
  {orphan : SweepCandidate orphanCategories}

/-- The checks leave a candidate of a batch unprotected. -/
def LeftUnprotected (db : ArtifactTables) (activeMessageIds : List PyStr) (t : StorageTree)
    (candidates : List (SweepCandidate orphanCategories)) (storagePath : PyStr) : Prop :=
  ∃ paths, protectedArtifactPaths db activeMessageIds t
      (candidates.map SweepCandidate.storagePath).dedup = some paths ∧ storagePath ∉ paths

theorem mem_orphanUnlinked :
    orphan ∈ (sweepRetainedArtifacts removable db activeMessageIds t quarantineCandidates
        orphanCandidates).orphanUnlinked ↔
      orphan ∈ orphanCandidates ∧
        LeftUnprotected db activeMessageIds (checkedTree removable t quarantineCandidates) orphanCandidates
          orphan.storagePath ∧
        Unchanged removable (checkedTree removable t quarantineCandidates) orphan := by
  unfold sweepRetainedArtifacts LeftUnprotected checkedTree
  cases hpaths : protectedArtifactPaths db activeMessageIds
      (sweepCandidates removable (fun _ => false) t quarantineCandidates).tree
      (orphanCandidates.map SweepCandidate.storagePath).dedup with
  | none => simp [hpaths]
  | some paths => simp [hpaths, mem_unlinked]

/-- The sweep may delete an artifact: nothing refers to it, and it is the file that was listed. -/
structure MayUnlink (db : ArtifactTables) (activeMessageIds : List PyStr) (t : StorageTree)
    (candidate : SweepCandidate categories) : Prop where
  database : ∀ column ∈ db.columns, candidate.storagePath ∉ column
  accepting : ∀ messageId, artifactMessageId candidate.storagePath = some messageId →
    messageId ∉ activeMessageIds
  records : ∀ messageId, artifactMessageId candidate.storagePath = some messageId →
    ∀ path, IsRecord t path → ManifestOf messageId path ∨ QuarantineRecordOf messageId path →
      Clears t path candidate.storagePath
  unchanged : ∃ data, t.get? (pathParts candidate.storagePath) = some (.file data) ∧
    data.signature = candidate.statSignature

/-- A message has at most one manifest, in the date directory of its artifacts. -/
structure ManifestInPlace (t : StorageTree) (storagePath : PyStr) : Prop where
  one : ∀ messageId, artifactMessageId storagePath = some messageId → ∀ path path',
    IsRecord t path → ManifestOf messageId path → IsRecord t path' → ManifestOf messageId path' →
      path = path'
  dated : ∀ messageId, artifactMessageId storagePath = some messageId → ∀ path, IsRecord t path →
    ManifestOf messageId path → (pathParts storagePath).head? ≠ some attachments →
      ∃ category year month day rest, rest ≠ [] ∧
        pathParts storagePath = category :: year :: month :: day :: rest ∧
        path = [manifests, year, month, day, manifestName messageId]

/-- A record of the message of an artifact that the walks do not come by; the manifest of an artifact
    that is no attachment is not looked for in a walk. -/
def HasHiddenRecord (t : StorageTree) (storagePath : PyStr) : Prop :=
  ∃ messageId path, artifactMessageId storagePath = some messageId ∧ IsRecord t path ∧ t.Hidden path ∧
    (QuarantineRecordOf messageId path ∨
      (pathParts storagePath).head? = some attachments ∧ ManifestOf messageId path)

/-- The stages of the checks. -/
theorem LeftUnprotected.stages (h : LeftUnprotected db activeMessageIds t orphanCandidates storagePath)
    (hmem : storagePath ∈ orphanCandidates.map SweepCandidate.storagePath) :
    (∀ column ∈ db.columns, storagePath ∉ column) ∧
      (∀ messageId, artifactMessageId storagePath = some messageId → messageId ∉ activeMessageIds) ∧
      (∃ paths, storagePath ∈ paths ∧ storagePath ∉ quarantineArtifactReferences t paths) ∧
      ∃ paths, storagePath ∈ paths ∧ storagePath ∉ manifestArtifactReferences t paths := by
  obtain ⟨paths, hpaths, hnot⟩ := h
  rw [← List.mem_dedup] at hmem
  generalize (orphanCandidates.map SweepCandidate.storagePath).dedup = candidatePaths at *
  unfold protectedArtifactPaths at hpaths
  split at hpaths
  · rename_i hempty
    rw [List.isEmpty_iff] at hempty
    rw [hempty] at hmem
    cases hmem
  · obtain ⟨inDatabase, hdatabase, hpaths⟩ := Option.bind_eq_some_iff.mp hpaths
    cases hpaths
    have hcontains (xs : List PyStr) (hxs : storagePath ∉ xs) : (!xs.contains storagePath) = true := by
      simpa using hxs
    rw [List.mem_append, not_or] at hnot
    obtain ⟨hkept, hnotManifested⟩ := hnot
    have hnotKnown := (List.mem_append.not.trans not_or).mp hkept
    obtain ⟨hnotDatabase, hnotActive⟩ := (List.mem_append.not.trans not_or).mp hnotKnown.1
    refine ⟨?_, ?_, ⟨_, List.mem_filter.mpr ⟨hmem, hcontains _ hnotKnown.1⟩, hnotKnown.2⟩,
      ⟨_, List.mem_filter.mpr ⟨hmem, hcontains _ hkept⟩, hnotManifested⟩⟩
    · intro column hcolumn hin
      exact hnotDatabase (mem_databaseArtifactReferences hdatabase hmem hcolumn hin)
    · intro messageId hid hactive
      refine hnotActive (List.mem_filter.mpr ⟨hmem, ?_⟩)
      rw [hid]
      simpa using hactive

theorem isRecord_of_checkedTree (h : IsRecord (checkedTree removable t quarantineCandidates) path) :
    IsRecord t path := by
  obtain ⟨e, he, hdir⟩ := h
  exact ⟨e, get?_of_sweepCandidates he hdir, hdir⟩

theorem ManifestInPlace.checkedTree (h : ManifestInPlace t storagePath) :
    ManifestInPlace (checkedTree removable t quarantineCandidates) storagePath where
  one messageId hid path path' hpath hname hpath' hname' :=
    h.one messageId hid path path' (isRecord_of_checkedTree hpath) hname
      (isRecord_of_checkedTree hpath') hname'
  dated messageId hid path hpath hname :=
    h.dated messageId hid path (isRecord_of_checkedTree hpath) hname

/-- The records of an artifact that comes through the checks, but for those that are hidden. -/
theorem LeftUnprotected.clears (h : LeftUnprotected db activeMessageIds t orphanCandidates
      orphan.storagePath)
    (hmem : orphan ∈ orphanCandidates) (hplace : ManifestInPlace t orphan.storagePath)
    (hshown : ¬HasHiddenRecord t orphan.storagePath)
    (hid : artifactMessageId orphan.storagePath = some messageId) (hrecord : IsRecord t path)
    (hname : ManifestOf messageId path ∨ QuarantineRecordOf messageId path) :
    Clears t path orphan.storagePath := by
  obtain ⟨-, -, ⟨rest, hrest, hquarantined⟩, rest', hrest', hmanifested⟩ :=
    h.stages (List.mem_map.mpr ⟨orphan, hmem, rfl⟩)
  obtain ⟨e, he, hdir⟩ := hrecord
  rcases hname with hmanifest | hquarantine
  · by_cases hattachment : (pathParts orphan.storagePath).head? = some attachments
    · have hnotHidden : ¬t.Hidden path := fun hhidden =>
        hshown ⟨messageId, path, hid, ⟨e, he, hdir⟩, hhidden, .inr ⟨hattachment, hmanifest⟩⟩
      refine clears_of_walkedManifest hrest' hattachment hid
        (mem_walkCategory hmanifest.category hmanifest.below ⟨e, he, hdir⟩ hnotHidden) hmanifest.name
        ?_ he hmanifested
      intro other hother hotherName
      obtain ⟨hcategory, hbelow, hotherRecord⟩ := of_mem_walkCategory hother
      exact hplace.one messageId hid other path hotherRecord ⟨hcategory, hbelow, hotherName⟩
        ⟨e, he, hdir⟩ hmanifest
    · obtain ⟨category, year, month, day, names, hnames, hparts, rfl⟩ :=
        hplace.dated messageId hid path ⟨e, he, hdir⟩ hmanifest hattachment
      refine clears_of_datedManifest hrest' hid ?_ he hmanifested
      rw [hparts] at hattachment
      obtain ⟨name, names, rfl⟩ := List.exists_cons_of_ne_nil hnames
      rw [datedManifestPath, hparts]
      exact if_neg fun heq => hattachment (congrArg some heq)
  · have hnotHidden : ¬t.Hidden path := fun hhidden =>
      hshown ⟨messageId, path, hid, ⟨e, he, hdir⟩, hhidden, .inl hquarantine⟩
    exact clears_of_quarantine hrest hid
      (mem_walkCategory hquarantine.category hquarantine.below ⟨e, he, hdir⟩ hnotHidden)
      hquarantine.name hquarantined

/-- A hidden record cannot be read. -/
theorem MayUnlink.not_hidden (h : MayUnlink db activeMessageIds t candidate) :
    ¬HasHiddenRecord t candidate.storagePath := by
  rintro ⟨messageId, path, hid, hrecord, hhidden, hname⟩
  have hnamed : ManifestOf messageId path ∨ QuarantineRecordOf messageId path := by
    rcases hname with hquarantine | ⟨-, hmanifest⟩
    · exact .inr hquarantine
    · exact .inl hmanifest
  obtain ⟨payload, hreadable, -⟩ := h.records messageId hid path hrecord hnamed
  obtain ⟨data, hdata, -⟩ := hreadable.content
  exact FileTree.not_hidden hreadable.parents hdata hhidden

/-- The sweep deletes an artifact only if it may, exactly where the artifacts that come through its
    checks have no hidden record. -/
theorem sweep_spares_recorded (removable : List PyStr → Bool) (db : ArtifactTables)
    (activeMessageIds : List PyStr) (t : StorageTree)
    (quarantineCandidates : List (SweepCandidate [quarantine]))
    (orphanCandidates : List (SweepCandidate orphanCategories))
    (hmanifests : ∀ candidate ∈ orphanCandidates, ManifestInPlace t candidate.storagePath) :
    (∀ candidate ∈ (sweepRetainedArtifacts removable db activeMessageIds t quarantineCandidates
        orphanCandidates).orphanUnlinked,
      MayUnlink db activeMessageIds (checkedTree removable t quarantineCandidates) candidate) ↔
    ∀ candidate ∈ orphanCandidates,
      LeftUnprotected db activeMessageIds (checkedTree removable t quarantineCandidates) orphanCandidates
        candidate.storagePath →
      Unchanged removable (checkedTree removable t quarantineCandidates) candidate →
      ¬HasHiddenRecord (checkedTree removable t quarantineCandidates) candidate.storagePath := by
  constructor
  · intro h candidate hmem hleft hunchanged
    exact (h candidate (mem_orphanUnlinked.mpr ⟨hmem, hleft, hunchanged⟩)).not_hidden
  · intro h candidate hunlinked
    obtain ⟨hmem, hleft, hunchanged⟩ := mem_orphanUnlinked.mp hunlinked
    have hshown := h candidate hmem hleft hunchanged
    have hplace : ManifestInPlace (checkedTree removable t quarantineCandidates) candidate.storagePath :=
      (hmanifests candidate hmem).checkedTree
    obtain ⟨hdatabase, haccepting, -⟩ := hleft.stages (List.mem_map.mpr ⟨candidate, hmem, rfl⟩)
    exact
      { database := hdatabase
        accepting := haccepting
        records := fun messageId hid path hrecord hname =>
          hleft.clears hmem hplace hshown hid hrecord hname
        unchanged := hunchanged.file }

/-! ## A manifest in a directory that cannot be listed -/

def attachmentSignature : StatSignature := ⟨1, 2, 3, 4, 5, 6⟩

def listedAttachment : SweepCandidate orphanCategories where
  storagePath := str "attachments/m1/a.bin"
  statSignature := attachmentSignature
  valid := by decide +kernel
  canonical := by decide +kernel
  category := by decide +kernel

def manifestPayload : PyJson :=
  .dict [(str "parsed", .dict
    [(str "attachments", .list [.dict [(str "storage_path", .str (str "attachments/m1/a.bin"))]])])]

/-- An attachment, and the manifest that names it. -/
def attachmentTree (listable : Bool) : StorageTree :=
  .dir true [attachments, manifests] fun category =>
    if category = attachments then
      .dir true [str "m1"] fun _ =>
        .dir true [str "a.bin"] fun _ => .file ⟨attachmentSignature, none⟩
    else
      .dir true [str "2026"] fun _ => .dir true [str "05"] fun _ =>
        .dir listable [str "01"] fun _ => .dir true [str "m1.json"] fun _ =>
          .file ⟨⟨1, 3, 3, 4, 5, 6⟩, some manifestPayload⟩

def emptyTables : ArtifactTables := ⟨[], [], [], [], []⟩

/-- The files of a directory with one entry. -/
theorem get?_dir_singleton {isOpen : Bool} {name : PyStr} {child : PyStr → StorageTree}
    {e : FileTree PyStr FileData} (h : (FileTree.dir isOpen [name] child).get? path = some e)
    (hdir : e.isDir = false) : ∃ rest, path = name :: rest ∧ (child name).get? rest = some e := by
  cases path with
  | nil =>
    cases h
    cases hdir
  | cons first rest =>
    obtain ⟨_, _, _, heq, hname, hrest⟩ := FileTree.dir_of_get?_cons h
    cases heq
    obtain rfl := List.mem_singleton.mp hname
    exact ⟨rest, rfl, hrest⟩

def manifestPath : List PyStr := [manifests, str "2026", str "05", str "01", str "m1.json"]

/-- The files of the tree. -/
theorem attachmentTree_record {listable : Bool} (h : IsRecord (attachmentTree listable) path) :
    path.head? = some attachments ∨ path = manifestPath := by
  obtain ⟨e, he, hdir⟩ := h
  cases path with
  | nil =>
    cases he
    cases hdir
  | cons category rest =>
    obtain ⟨_, _, _, heq, hcategory, hrest⟩ := FileTree.dir_of_get?_cons he
    cases heq
    by_cases hattachments : category = attachments
    · exact .inl (congrArg some hattachments)
    · right
      beta_reduce at hrest
      rw [if_neg hattachments] at hrest
      obtain rfl : category = manifests := by simpa [hattachments] using hcategory
      obtain ⟨below2026, rfl, h2026⟩ := get?_dir_singleton hrest hdir
      obtain ⟨below05, rfl, h05⟩ := get?_dir_singleton h2026 hdir
      obtain ⟨below01, rfl, h01⟩ := get?_dir_singleton h05 hdir
      obtain ⟨belowFile, rfl, hfile⟩ := get?_dir_singleton h01 hdir
      cases belowFile with
      | nil => rfl
      | cons name rest => cases hfile

theorem attachmentTree_manifest {listable : Bool} (h : IsRecord (attachmentTree listable) path)
    (hname : ManifestOf messageId path) : path = manifestPath := by
  rcases attachmentTree_record h with hattachments | hpath
  · rw [hname.category] at hattachments
    exact absurd hattachments (by decide +kernel)
  · exact hpath

theorem attachmentTree_inPlace {listable : Bool} :
    ManifestInPlace (attachmentTree listable) listedAttachment.storagePath where
  one _ _ _ _ hpath hname hpath' hname' :=
    (attachmentTree_manifest hpath hname).trans (attachmentTree_manifest hpath' hname').symm
  dated _ _ _ _ _ hcategory := absurd rfl hcategory

/-- With a directory that can be listed, the sweep spares the attachment. -/
theorem sweep_spares_attachment :
    (∀ candidate ∈ [listedAttachment],
      ManifestInPlace (attachmentTree true) candidate.storagePath) ∧
    ∀ candidate ∈ (sweepRetainedArtifacts (fun _ => true) emptyTables [] (attachmentTree true) []
        [listedAttachment]).orphanUnlinked,
      MayUnlink emptyTables [] (checkedTree (fun _ => true) (attachmentTree true) []) candidate := by
  have hplace : ∀ candidate ∈ [listedAttachment],
      ManifestInPlace (attachmentTree true) candidate.storagePath := by
    intro candidate hcandidate
    rw [List.mem_singleton.mp hcandidate]
    exact attachmentTree_inPlace
  refine ⟨hplace, (sweep_spares_recorded _ _ _ _ _ _ hplace).mpr ?_⟩
  rintro candidate - - - ⟨messageId, path, -, hrecord, hhidden, hname⟩
  rcases attachmentTree_record hrecord with hattachments | rfl
  · rcases hname with hquarantine | ⟨-, hmanifest⟩
    · rw [hquarantine.category] at hattachments
      exact absurd hattachments (by decide +kernel)
    · rw [hmanifest.category] at hattachments
      exact absurd hattachments (by decide +kernel)
  · have hopen : (attachmentTree true).openDir isFileName manifestPath.dropLast = .ok () := rfl
    exact FileTree.not_hidden hopen rfl hhidden

/-- The manifest names the attachment, but its directory cannot be listed: the sweep deletes the
    attachment. -/
theorem sweep_deletes_recorded :
    (∀ candidate ∈ [listedAttachment],
      ManifestInPlace (attachmentTree false) candidate.storagePath) ∧
    listedAttachment ∈ (sweepRetainedArtifacts (fun _ => true) emptyTables [] (attachmentTree false) []
      [listedAttachment]).orphanUnlinked ∧
    ¬MayUnlink emptyTables [] (checkedTree (fun _ => true) (attachmentTree false) [])
      listedAttachment := by
  refine ⟨?_, List.mem_cons_self, ?_⟩
  · intro candidate hcandidate
    rw [List.mem_singleton.mp hcandidate]
    exact attachmentTree_inPlace
  · intro h
    have hclears := h.records (str "m1") (by decide +kernel) manifestPath ⟨_, rfl, rfl⟩
      (.inl ⟨rfl, by decide, rfl⟩)
    obtain ⟨payload, hreadable, -⟩ := hclears
    have hparents := hreadable.parents
    cases hparents

end RapidInbox.Files

import Mathlib.Data.List.Sort
import Mathlib.Data.List.Dedup
import RapidInbox.Files.StorageTree

/-!
# The artifact sweep

`_sweep_retained_artifacts` deletes old quarantine records, and then the old artifacts (raw messages,
bodies and attachments) of a batch that nothing protects: no row of the database, no message that is
being accepted, and no manifest or quarantine record.
-/

namespace RapidInbox.Files

def str (s : String) : PyStr := PyStr.ofChars s.toList

def quarantine : PyStr := str "quarantine"

def manifests : PyStr := str "manifests"

def attachments : PyStr := str "attachments"

def orphanCategories : List PyStr := [attachments, str "html", str "raw", str "text"]

/-! ## Names -/

/-- `s.removesuffix(suffix)` -/
def removeSuffix (s suffix : PyStr) : PyStr :=
  if suffix.isSuffixOf s then s.take (s.length - suffix.length) else s

/-- `Path(name).stem` -/
def stem (name : PyStr) : PyStr :=
  let after := (name.reverse.takeWhile (· ≠ CodePoint.ofChar '.')).length
  if 0 < after && after + 1 < name.length then name.take (name.length - after - 1) else name

/-- `Path(*parts).as_posix()` -/
def asPosix (parts : List PyStr) : PyStr :=
  if parts.isEmpty then dot else [slash].intercalate parts

/-- `_artifact_message_id` -/
def artifactMessageId (storagePath : PyStr) : Option PyStr :=
  let parts := pathParts storagePath
  if 3 ≤ parts.length ∧ parts.head? = some attachments then parts[1]?
  else if 2 ≤ parts.length ∧ parts.headD [] ∈ [str "raw", str "text", str "html"] then
    some (stem (parts.getLastD []))
  else none

def manifestName (messageId : PyStr) : PyStr := messageId ++ str ".json"

/-- The test of `_matching_quarantine_paths`. -/
def isQuarantineName (messageId fileName : PyStr) : Bool :=
  let stem := removeSuffix (removeSuffix fileName (str ".json")) (str ".error")
  (str ".json").isSuffixOf fileName &&
    (decide (stem = messageId) || (messageId ++ str "-").isPrefixOf stem)

/-! ## Records -/

/-- The values of a record that name an artifact. -/
def referenceValues (payload : PyDict) : List PyJson :=
  (payload.get? "raw_path").toList ++
    match payload.get? "parsed" with
    | some (.dict parsed) =>
      (PyDict.get? parsed "text_body_path").toList ++ (PyDict.get? parsed "html_body_path").toList ++
        match PyDict.get? parsed "attachments" with
        | some (.list items) =>
          items.filterMap fun item =>
            match item with
            | .dict attachment => PyDict.get? attachment "storage_path"
            | _ => none
        | _ => []
    | _ => []

def artifactReference : PyJson → Option PyStr
  | .str path =>
    if path.isEmpty || isAbsolute path || (pathParts path).contains dotDot then none
    else some (asPosix (pathParts path))
  | _ => none

def maxManifestSweepBytes : Nat := 16 * 1024 * 1024

/-- `_read_manifest_artifact_references`, of a record with a path in the tree. -/
def readManifestArtifactReferences (t : StorageTree) (path : List PyStr) : Accessed (List PyStr) := do
  (t.openDir isFileName path.dropLast).mapError .cannotOpen
  match ← statEntry t path with
  | none => .error (.cannotOpen .missing)
  | some (.file data) =>
    if data.signature.size ≤ maxManifestSweepBytes then
      match data.content with
      | some (.dict payload) => return (referenceValues payload).filterMap artifactReference
      | _ => .error .unreadable
    else .error .unreadable
  | some (.link _) => .error (.cannotOpen .notDirectory)
  | some _ => .error .notRegular

/-- The files that a walk over one of the directories of the storage root comes by. -/
def walkCategory (t : StorageTree) (category : PyStr) : List (List PyStr) :=
  match t.get? [category] with
  | some (.dir isOpen names child) =>
    (FileTree.dir isOpen names child).walkFiles.map (category :: ·)
  | _ => []

/-- `_matching_quarantine_paths` -/
def matchingQuarantinePaths (t : StorageTree) (messageIds : List PyStr) :
    List (List PyStr × List PyStr) :=
  (walkCategory t quarantine).filterMap fun path =>
    let associated := messageIds.filter fun messageId => isQuarantineName messageId (path.getLastD [])
    if associated.isEmpty then none else some (path, associated)

/-- The loop of `_matching_manifest_paths`; the names that are still expected are those of
    `messageIds`. -/
def matchManifests : List (List PyStr) → List PyStr → List (List PyStr × PyStr)
  | [], _ => []
  | path :: paths, messageIds =>
    match messageIds.find? fun messageId => manifestName messageId = path.getLastD [] with
    | some messageId =>
      (path, messageId) :: matchManifests paths (messageIds.filter (· ≠ messageId))
    | none => matchManifests paths messageIds

/-- `_matching_manifest_paths` -/
def matchingManifestPaths (t : StorageTree) (messageIds : List PyStr) : List (List PyStr × PyStr) :=
  if messageIds.isEmpty then [] else matchManifests (walkCategory t manifests) messageIds

/-! ## What is protected -/

/-- The columns with paths of artifacts; the paths of bodies may be null. -/
structure ArtifactTables where
  rawPaths : List PyStr
  textBodyPaths : List (Option PyStr)
  htmlBodyPaths : List (Option PyStr)
  attachmentPaths : List PyStr
  fileGcPaths : List PyStr

def ArtifactTables.columns (db : ArtifactTables) : List (List PyStr) :=
  [db.rawPaths, db.textBodyPaths.reduceOption, db.htmlBodyPaths.reduceOption, db.attachmentPaths,
    db.fileGcPaths]

/-- The slices `xs[i : i + n]` for `i` in `range(0, len(xs), n)`. -/
def chunks (n : Nat) (xs : List PyStr) : List (List PyStr) :=
  (List.range ((xs.length + n - 1) / n)).map fun i => (xs.drop (n * i)).take n

/-- `a <= b`: strings are compared code point by code point. -/
def sortsBefore (a b : PyStr) : Bool := !b.lex a fun x y => decide (x.val < y.val)

/-- `_database_artifact_references`; a path that has no UTF-8 cannot be bound, and the call raises. -/
def databaseArtifactReferences (db : ArtifactTables) (candidatePaths : List PyStr) :
    Option (List PyStr) := do
  let found ← (chunks 400 (candidatePaths.insertionSort fun a b => sortsBefore a b)).mapM fun chunk =>
    if chunk.all PyStr.encodable then
      some (db.columns.flatMap fun column => column.filter fun path => chunk.contains path)
    else none
  return found.flatten

/-- The candidates of a message. -/
def pathsOf (candidatePaths : List PyStr) (messageId : PyStr) : List PyStr :=
  candidatePaths.filter fun path => artifactMessageId path = some messageId

/-- The candidates that a record protects: those that it names, or, when it cannot be read, those of
    its messages. -/
def protectedBy (t : StorageTree) (candidatePaths : List PyStr) (path : List PyStr)
    (associated : List PyStr) : List PyStr :=
  match readManifestArtifactReferences t path with
  | .ok references => candidatePaths.filter fun candidate => references.contains candidate
  | .error _ => associated

/-- `_quarantine_artifact_references` -/
def quarantineArtifactReferences (t : StorageTree) (candidatePaths : List PyStr) : List PyStr :=
  (matchingQuarantinePaths t (candidatePaths.filterMap artifactMessageId).dedup).flatMap fun record =>
    protectedBy t candidatePaths record.1 (record.2.flatMap (pathsOf candidatePaths))

/-- The manifest in the date directory of an artifact that is no attachment. -/
def datedManifestPath (storagePath messageId : PyStr) : Option (List PyStr) :=
  match pathParts storagePath with
  | category :: year :: month :: day :: _ :: _ =>
    if category = attachments then none
    else some [manifests, year, month, day, manifestName messageId]
  | _ => none

/-- The entries of `manifest_candidates`, one for each artifact and one for each manifest that was
    found for attachments. -/
def manifestCandidates (t : StorageTree) (candidatePaths : List PyStr) :
    List (List PyStr × List PyStr) :=
  (candidatePaths.filterMap fun storagePath =>
    (artifactMessageId storagePath).bind fun messageId =>
      (datedManifestPath storagePath messageId).map fun path => (path, [storagePath])) ++
    (matchingManifestPaths t
      ((candidatePaths.filter fun storagePath =>
        (pathParts storagePath).head? = some attachments).filterMap artifactMessageId).dedup).map
      fun found => (found.1, pathsOf candidatePaths found.2)

/-- `_manifest_artifact_references` -/
def manifestArtifactReferences (t : StorageTree) (candidatePaths : List PyStr) : List PyStr :=
  (manifestCandidates t candidatePaths).flatMap fun manifest =>
    if readManifestArtifactReferences t manifest.1 = .error (.cannotOpen .missing) then []
    else protectedBy t candidatePaths manifest.1 manifest.2

/-- `_protected_artifact_paths` -/
def protectedArtifactPaths (db : ArtifactTables) (activeMessageIds : List PyStr) (t : StorageTree)
    (candidatePaths : List PyStr) : Option (List PyStr) :=
  if candidatePaths.isEmpty then some []
  else do
    let inDatabase ← databaseArtifactReferences db candidatePaths
    let active := candidatePaths.filter fun path =>
      (artifactMessageId path).any fun messageId => activeMessageIds.contains messageId
    let known := inDatabase ++ active
    let quarantined := quarantineArtifactReferences t
      (candidatePaths.filter fun path => !known.contains path)
    let manifested := manifestArtifactReferences t
      (candidatePaths.filter fun path => !(known ++ quarantined).contains path)
    return known ++ quarantined ++ manifested

/-! ## The sweep -/

/-- A file that a walk over the directories `categories` listed, with what `stat` said of it. -/
@[ext]
structure SweepCandidate (categories : List PyStr) where
  storagePath : PyStr
  statSignature : StatSignature
  valid : storageParts storagePath = .ok (pathParts storagePath)
  canonical : asPosix (pathParts storagePath) = storagePath
  category : (pathParts storagePath).headD [] ∈ categories

/-- `_safe_unlink_sweep_candidate`: the tree without the file, if the file is the one that was
    listed; `removable` says which entries the system lets the process remove. -/
def safeUnlinkSweepCandidate {categories : List PyStr} (removable : List PyStr → Bool)
    (t : StorageTree) (candidate : SweepCandidate categories) : Accessed (Option StorageTree) := do
  let parts ← openStorageParentNoFollow t candidate.storagePath
  match ← statEntry t parts with
  | some (.file data) =>
    if data.signature ≠ candidate.statSignature then return none
    else if removable parts then return some (t.remove parts)
    else .error .cannotUnlink
  | _ => return none

/-- What one of the two loops of the sweep did. -/
structure SweepPass (categories : List PyStr) where
  unlinked : List (SweepCandidate categories)
  failed : Nat
  tree : StorageTree

/-- A loop over candidates. -/
def sweepCandidates {categories : List PyStr} (removable : List PyStr → Bool)
    (isProtected : PyStr → Bool) :
    StorageTree → List (SweepCandidate categories) → SweepPass categories
  | t, [] => ⟨[], 0, t⟩
  | t, candidate :: candidates =>
    if isProtected candidate.storagePath then sweepCandidates removable isProtected t candidates
    else
      match safeUnlinkSweepCandidate removable t candidate with
      | .ok (some t') =>
        let rest := sweepCandidates removable isProtected t' candidates
        { rest with unlinked := candidate :: rest.unlinked }
      | .ok none => sweepCandidates removable isProtected t candidates
      | .error _ =>
        let rest := sweepCandidates removable isProtected t candidates
        { rest with failed := rest.failed + 1 }

/-- What `_sweep_retained_artifacts` returns. -/
structure SweepReport where
  quarantineFilesDeleted : Nat
  quarantineFilesFailed : Nat
  quarantineFilesExamined : Nat
  orphanArtifactsDeleted : Nat
  orphanArtifactsFailed : Nat
  orphanArtifactsExamined : Nat
  orphanArtifactsProtected : Nat
  deriving DecidableEq

/-- The sweep: the artifacts that it deleted, the tree after it, and its report, unless it raised. -/
structure SweepResult where
  orphanUnlinked : List (SweepCandidate orphanCategories)
  tree : StorageTree
  report : Option SweepReport

/-- The tree in which the checks run: the one without the old quarantine records. -/
def checkedTree (removable : List PyStr → Bool) (t : StorageTree)
    (quarantineCandidates : List (SweepCandidate [quarantine])) : StorageTree :=
  (sweepCandidates removable (fun _ => false) t quarantineCandidates).tree

/-- `_sweep_retained_artifacts` -/
def sweepRetainedArtifacts (removable : List PyStr → Bool) (db : ArtifactTables)
    (activeMessageIds : List PyStr) (t : StorageTree)
    (quarantineCandidates : List (SweepCandidate [quarantine]))
    (orphanCandidates : List (SweepCandidate orphanCategories)) : SweepResult :=
  let first := sweepCandidates removable (fun _ => false) t quarantineCandidates
  match protectedArtifactPaths db activeMessageIds first.tree
      (orphanCandidates.map SweepCandidate.storagePath).dedup with
  | none => ⟨[], first.tree, none⟩
  | some paths =>
    let second := sweepCandidates removable paths.contains first.tree orphanCandidates
    ⟨second.unlinked, second.tree,
      some
        { quarantineFilesDeleted := first.unlinked.length
          quarantineFilesFailed := first.failed
          quarantineFilesExamined := quarantineCandidates.length
          orphanArtifactsDeleted := second.unlinked.length
          orphanArtifactsFailed := second.failed
          orphanArtifactsExamined := orphanCandidates.length
          orphanArtifactsProtected := paths.dedup.length }⟩

end RapidInbox.Files

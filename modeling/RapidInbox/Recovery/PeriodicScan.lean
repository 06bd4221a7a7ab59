import Mathlib.Data.List.Sort
import Mathlib.Data.Prod.Lex
import RapidInbox.Recovery.FullScan

/-!
# The periodic recovery scan

The cursor of `recovery.py:717-996` is a watermark, the paths that were seen at it, and the paths to be
tried again.  The full scan sets it; then every pass handles some of the manifests behind it and moves
it.  A manifest is written to a hidden file and renamed; manifests become visible and are removed while
a pass lists the directories and stats what it has found.
-/

namespace RapidInbox.Recovery

/-- `_periodic_watermark_ns` with the tables of `_periodic_state`; `retries` has the order of
    `rotation_sequence`. -/
structure ScanCursor (π : Type) where
  watermarkNs : Int
  watermarkPaths : List π
  retries : List π

/-- `PERIODIC_MANIFEST_SCAN_BATCH_SIZE`, `PERIODIC_MANIFEST_RETRY_SHARE` and
    `MAX_RECOVERY_MANIFEST_BATCH_BYTES`. -/
structure PeriodicBounds where
  batchSize : Nat
  retryShare : Nat
  batchBytes : Nat

def periodicBounds : PeriodicBounds := ⟨1000, 4, 16 * 1024 * 1024⟩

namespace ScanCursor

variable {π : Type} [LinearOrder π]

/-- The state that the full scan leaves. -/
def ofPeriodicState (state : PeriodicState) (retries : List PyStr) : ScanCursor PyStr :=
  ⟨state.periodicWatermarkNs, state.periodicWatermarkPaths, retries⟩

/-! ## The paths to be tried again -/

/-- `_schedule_periodic_retry` -/
def schedulePeriodicRetry (c : ScanCursor π) (path : π) : ScanCursor π :=
  { c with retries := if path ∈ c.retries then c.retries else c.retries ++ [path] }

/-- `_discard_periodic_retry` -/
def discardPeriodicRetry (c : ScanCursor π) (path : π) : ScanCursor π :=
  { c with retries := c.retries.filter (· ≠ path) }

/-- What the loop of `_take_periodic_retries` inspects: what is inspected goes behind the others, or
    away, so that the pages of 256 rows are the queue as it was. -/
def inspected (stat : π → Option Nat) (exclude : List π) : Nat → List π → List π
  | _, [] => []
  | 0, _ => []
  | limit + 1, path :: queue =>
    path :: inspected stat exclude (if stat path = none ∨ path ∈ exclude then limit + 1 else limit) queue

/-- `_take_periodic_retries` -/
def takePeriodicRetries (stat : π → Option Nat) (limit : Nat) (exclude : List π) (c : ScanCursor π) :
    List (π × Nat) × ScanCursor π :=
  let paths := inspected stat exclude limit c.retries
  let found := paths.filterMap fun path => (stat path).map (path, ·)
  (found.filter fun item => item.1 ∉ exclude,
    { c with retries := c.retries.filter (· ∉ paths) ++ found.map Prod.fst })

/-! ## The selection -/

/-- The loop of `_bound_selected_paths_by_bytes`; `charge` is `_manifest_budget_bytes`, and nothing for
    a file that cannot be found. -/
def boundByBytes (charge : π → Nat) (batchBytes : Nat) : Bool → Nat → List (π × Nat) → List (π × Nat)
  | _, _, [] => []
  | bounded, admittedBytes, item :: rest =>
    let bytes := admittedBytes + charge item.1
    if bounded = true ∧ batchBytes < bytes then []
    else if batchBytes ≤ bytes then [item]
    else item :: boundByBytes charge batchBytes true bytes rest

/-- `_bound_selected_paths_by_bytes` -/
def boundSelectedPathsByBytes (charge : π → Nat) (batchBytes : Nat)
    (selected watermarkPaths : List (π × Nat)) : List (π × Nat) × List (π × Nat) :=
  let bounded := boundByBytes charge batchBytes false 0 selected
  (bounded, bounded.filter fun item => decide (item.1 ∈ watermarkPaths.map Prod.fst))

/-- `fresh_candidates` -/
def isFresh (c : ScanCursor π) (item : π × Nat) : Bool :=
  decide (item.1 ∉ c.retries) && (decide (c.watermarkNs < item.2) ||
    (decide ((item.2 : Int) = c.watermarkNs) && decide (item.1 ∉ c.watermarkPaths)))

/-- The key `(item[1], str(item[0]))`. -/
def Before (a b : π × Nat) : Prop := toLex (a.2, a.1) ≤ toLex (b.2, b.1)

instance : DecidableRel (Before (π := π)) := fun a b =>
  inferInstanceAs (Decidable (toLex (a.2, a.1) ≤ toLex (b.2, b.1)))

def orderedFresh (c : ScanCursor π) (discovered : List (π × Nat)) : List (π × Nat) :=
  (discovered.filter c.isFresh).insertionSort Before

/-- `_select_manifest_paths`, of the manifests that the directories have shown: the selected paths, and
    those of them that move the watermark. -/
def selectManifestPaths (B : PeriodicBounds) (stat : π → Option Nat) (charge : π → Nat)
    (discovered : List (π × Nat)) (c : ScanCursor π) :
    (List (π × Nat) × List (π × Nat)) × ScanCursor π :=
  let bound := boundSelectedPathsByBytes charge B.batchBytes
  let fresh := c.orderedFresh discovered
  if c.retries = [] then
    (bound (fresh.take B.batchSize) (fresh.take B.batchSize), c)
  else if fresh = [] then
    let (retries, c) := c.takePeriodicRetries stat B.batchSize []
    (bound retries [], c)
  else
    let (retries, c) := c.takePeriodicRetries stat (max 1 (B.batchSize / B.retryShare)) []
    let freshBudget := B.batchSize - retries.length
    let fresh := fresh.take freshBudget
    if fresh.length < freshBudget then
      let (more, c) := c.takePeriodicRetries stat (B.batchSize - fresh.length - retries.length)
        (retries.map Prod.fst)
      (bound (fresh ++ (retries ++ more)) fresh, c)
    else (bound (fresh ++ retries) fresh, c)

/-! ## The watermark -/

/-- The paths with the given time. -/
def pathsAt (selected : List (π × Nat)) (mtimeNs : Int) : List π :=
  (selected.filter fun item => decide ((item.2 : Int) = mtimeNs)).map Prod.fst

/-- The greatest of the times. -/
def latestMtime (selected : List (π × Nat)) : Int :=
  selected.foldl (fun latest item => max latest item.2) (-1)

/-- `_advance_periodic_watermark` -/
def advancePeriodicWatermark (selected : List (π × Nat)) (c : ScanCursor π) : ScanCursor π :=
  if selected = [] then c
  else
    let latest := latestMtime selected
    if c.watermarkNs < latest then
      { c with watermarkNs := latest, watermarkPaths := pathsAt selected latest }
    else if latest = c.watermarkNs then
      { c with watermarkPaths := c.watermarkPaths ∪ pathsAt selected latest }
    else c

end ScanCursor

/-! ## Passes -/

/-- A pass under way. -/
structure ScanPass (π δ : Type) where
  start : Nat
  /-- The directories that are still to be listed. -/
  directories : List δ
  /-- The manifests that were listed and have no time yet. -/
  listed : List π
  /-- `discovered_paths` -/
  found : List (π × Nat)
  /-- The selected paths that have not been handled. -/
  pending : List π
  /-- `watermark_paths`, once the pass has selected. -/
  chosen : Option (List (π × Nat))

/-- The visible manifests with their times, and what has become of manifests: removed ones, and those
    that were replayed, found complete or retired, or quarantined. -/
structure ScanState (π δ : Type) where
  clock : Nat
  /-- The hidden files that are still to be renamed, with their times. -/
  staged : List (π × Nat)
  files : List (π × Nat)
  removed : List π
  settled : List π
  cursor : ScanCursor π
  pass : Option (ScanPass π δ)

/-- What a pass makes of a manifest: some ways to settle it leave the table of retries alone. -/
inductive ManifestOutcome where
  | settled (discard : Bool)
  | pinned
  deriving DecidableEq, Repr

inductive ScanAction (π δ : Type) where
  | tick (ns : Nat)
  /-- `_write_bytes` and `write_file_atomic` up to the rename: the hidden file is written. -/
  | stage (path : π)
  /-- The rename, which keeps the time of the hidden file; another manifest at the path is replaced. -/
  | publish (path : π) (mtimeNs : Nat)
  | remove (path : π)
  /-- A pass begins, with the directories that it will list. -/
  | begins (directories : List δ)
  /-- The next directory; nothing if the listing raises. -/
  | list (paths : List π)
  /-- The next manifest; `none` if `stat` raises. -/
  | stat (mtimeNs : Option Nat)
  | select (stat : π → Option Nat) (charge : π → Nat)
  | handle (i : Nat) (outcome : ManifestOutcome)
  | finish
  /-- Another exception leaves the cursor as it is. -/
  | abort

namespace ScanState

variable {π δ : Type} [LinearOrder π]

/-- A step of the pass that is under way. -/
def passStep (B : PeriodicBounds) (s : ScanState π δ) (P : ScanPass π δ) :
    ScanAction π δ → Option (ScanState π δ)
  | .list paths =>
    match P.directories with
    | [] => none
    | _ :: directories =>
      some { s with pass := some { P with directories, listed := P.listed ++ paths } }
  | .stat mtimeNs =>
    match P.listed with
    | [] => none
    | path :: listed =>
      match mtimeNs with
      | none => some { s with pass := some { P with listed } }
      | some mtimeNs =>
        if (path, mtimeNs) ∈ s.files then
          some { s with pass := some { P with listed, found := P.found ++ [(path, mtimeNs)] } }
        else none
  | .select stat charge =>
    if P.directories = [] ∧ P.listed = [] ∧ P.chosen = none then
      let ((selected, watermarkPaths), cursor) :=
        s.cursor.selectManifestPaths B stat charge P.found
      some { s with
        cursor
        pass := some { P with pending := selected.map Prod.fst, chosen := some watermarkPaths } }
    else none
  | .handle i outcome =>
    match P.pending[i]? with
    | none => none
    | some path =>
      let pass := some { P with pending := P.pending.eraseIdx i }
      match outcome with
      | .pinned => some { s with cursor := s.cursor.schedulePeriodicRetry path, pass }
      | .settled discard =>
        let cursor := if discard then s.cursor.discardPeriodicRetry path else s.cursor
        some { s with settled := path :: s.settled, cursor, pass }
  | .finish =>
    match P.chosen with
    | none => none
    | some watermarkPaths =>
      if P.pending = [] then
        some { s with cursor := s.cursor.advancePeriodicWatermark watermarkPaths, pass := none }
      else none
  | .abort => some { s with pass := none }
  | _ => none

def step (B : PeriodicBounds) (s : ScanState π δ) : ScanAction π δ → Option (ScanState π δ)
  | .tick ns => some { s with clock := s.clock + ns }
  | .stage path => some { s with staged := (path, s.clock) :: s.staged }
  | .publish path mtimeNs =>
    if (path, mtimeNs) ∈ s.staged then
      some { s with
        staged := s.staged.erase (path, mtimeNs)
        files := (path, mtimeNs) :: s.files.filter fun item => item.1 ≠ path }
    else none
  | .remove path =>
    some { s with
      files := s.files.filter fun item => item.1 ≠ path
      removed := path :: s.removed }
  | .begins directories =>
    match s.pass with
    | some _ => none
    | none => some { s with pass := some ⟨s.clock, directories, [], [], [], none⟩ }
  | a => s.pass.bind fun P => passStep B s P a

end ScanState
end RapidInbox.Recovery

import Mathlib.Data.List.Sort
import RapidInbox.Lib.Table
import RapidInbox.Lib.Result
import RapidInbox.Files.StorageTree

/-!
# The file GC

Retention puts the paths of the files to delete into `file_gc_tasks`.  `_drain_file_gc` takes a batch
of tasks that are due, deletes their files, and then removes in one transaction the tasks that
succeeded and postpones the others.
-/

namespace RapidInbox.Files

open Table

/-! ## Tasks -/

/-- A row of `file_gc_tasks`; times are in seconds. -/
structure FileGcTask where
  id : Nat
  storagePath : PyStr
  attempts : Nat
  lastError : Option StorageError
  nextAttemptAt : Option Int
  updatedAt : Int
  deriving DecidableEq

/-- The table. -/
structure FileGcTable where
  rows : List FileGcTask
  ids : UniqueKey FileGcTask.id rows
  storagePaths : UniqueKey FileGcTask.storagePath rows

/-- The alternation of the tombstones that were never tried with the retries. -/
def interleave : Nat → List FileGcTask → List FileGcTask → List FileGcTask
  | 0, _, _ => []
  | 1, pending :: _, _ => [pending]
  | limit + 2, pending :: pendings, retry :: retries =>
    pending :: retry :: interleave limit pendings retries
  | limit + 2, pending :: pendings, [] => pending :: interleave (limit + 1) pendings []
  | limit + 1, [], retry :: retries => retry :: interleave limit [] retries
  | _ + 1, [], [] => []

/-- `ORDER BY next_attempt_at ASC, id ASC` -/
def retriesBefore (a b : FileGcTask) : Bool :=
  decide (a.nextAttemptAt.getD 0 < b.nextAttemptAt.getD 0) ||
    (decide (a.nextAttemptAt.getD 0 = b.nextAttemptAt.getD 0) && decide (a.id ≤ b.id))

/-- `_load_due_file_gc_tasks` -/
def FileGcTable.loadDue (tasks : FileGcTable) (now : Int) (limit : Nat) : List FileGcTask :=
  let pendingRows := (tasks.rows.filter fun task => task.nextAttemptAt.isNone).mergeSort
    fun a b => decide (a.id ≤ b.id)
  let retryRows := (tasks.rows.filter fun task => task.nextAttemptAt.any (· ≤ now)).mergeSort
    retriesBefore
  interleave limit (pendingRows.take limit) (retryRows.take limit)

/-! ## Deleting files -/

/-- The trees after each `rmdir` of the directories that a deletion leaves empty, from the innermost
    on; `path` is reversed, and `removable` says which entries the system lets the process remove. -/
def pruneDirectories (removable : List PyStr → Bool) : StorageTree → List PyStr → List StorageTree
  | _, [] => []
  | t, name :: path =>
    if removable (name :: path).reverse && t.isEmptyDir (name :: path).reverse then
      t.remove (name :: path).reverse ::
        pruneDirectories removable (t.remove (name :: path).reverse) path
    else []

/-- `_safe_unlink_gc_path`: the trees after each change that it makes. -/
def safeUnlinkGcPath (removable : List PyStr → Bool) (t : StorageTree) (storagePath : PyStr) :
    Accessed (List StorageTree) := do
  let parts ← openStorageParentNoFollow t storagePath
  match ← statEntry t parts with
  | none => return []
  | some (.file _) =>
    if removable parts then
      return t.remove parts :: pruneDirectories removable (t.remove parts) parts.dropLast.reverse
    else .error .cannotUnlink
  | some _ => .error .notRegular

structure GcOutcome where
  task : FileGcTask
  error : Option StorageError

/-- `_delete_gc_paths`: the outcomes, and the trees after each change. -/
def deleteGcPaths (removable : List PyStr → Bool) :
    StorageTree → List FileGcTask → List GcOutcome × List StorageTree
  | _, [] => ([], [])
  | t, task :: tasks =>
    match safeUnlinkGcPath removable t task.storagePath with
    | .ok trees =>
      let rest := deleteGcPaths removable (trees.getLastD t) tasks
      (⟨task, none⟩ :: rest.1, trees ++ rest.2)
    | .error error =>
      let rest := deleteGcPaths removable t tasks
      (⟨task, some error⟩ :: rest.1, rest.2)

/-! ## The transaction -/

/-- The delay before the next attempt. -/
def retrySeconds (attempts : Nat) : Nat := min 3600 (30 * 2 ^ min (attempts - 1) 7)

/-- The task after a failure. -/
def FileGcTask.postpone (now : Int) (outcome : GcOutcome) (error : StorageError) (row : FileGcTask) :
    FileGcTask :=
  { row with
    attempts := outcome.task.attempts + 1
    lastError := some error
    nextAttemptAt := some (now + retrySeconds (outcome.task.attempts + 1))
    updatedAt := now }

/-- One turn of `apply_outcomes`. -/
def FileGcTable.applyOutcome (now : Int) (tasks : FileGcTable) (outcome : GcOutcome) : FileGcTable :=
  match outcome.error with
  | none =>
    ⟨tasks.rows.filter fun row => row.id ≠ outcome.task.id, tasks.ids.filter _,
      tasks.storagePaths.filter _⟩
  | some error =>
    ⟨updateWhere (fun row => decide (row.id = outcome.task.id)) (.postpone now outcome error) tasks.rows,
      tasks.ids.updateWhere fun _ => rfl, tasks.storagePaths.updateWhere fun _ => rfl⟩

/-- The store as the file GC sees it. -/
structure GcState where
  tasks : FileGcTable
  tree : StorageTree

/-- What `_drain_file_gc` reports. -/
structure GcReport where
  fileGcDeleted : Nat
  fileGcFailed : Nat
  fileGcPending : Nat
  deriving DecidableEq

/-- `_drain_file_gc` -/
def drainFileGc (removable : List PyStr → Bool) (now : Int) (limit : Nat) (s : GcState) :
    GcState × GcReport :=
  let rows := s.tasks.loadDue now limit
  let result := deleteGcPaths removable s.tree rows
  let tasks := result.1.foldl (FileGcTable.applyOutcome now) s.tasks
  let deleted := result.1.countP fun outcome => outcome.error.isNone
  (⟨tasks, result.2.getLastD s.tree⟩,
    { fileGcDeleted := deleted
      fileGcFailed := result.1.length - deleted
      fileGcPending := tasks.rows.length })

/-- The store after a run that crashed before its transaction, with `changes` of its changes of the
    tree made. -/
def GcState.crash (removable : List PyStr → Bool) (now : Int) (limit changes : Nat) (s : GcState) :
    GcState :=
  ⟨s.tasks,
    ((deleteGcPaths removable s.tree (s.tasks.loadDue now limit)).2.take changes).getLastD s.tree⟩

end RapidInbox.Files

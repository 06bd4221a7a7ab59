import RapidInbox.Files.FileGc

/-!
# The file GC after a crash

A crash before the transaction of the file GC leaves tasks whose files are gone.  The next run takes
such a task away only if it can still open the directories in front of the file, and these may have
been removed with the file.
-/

namespace RapidInbox.Files

open Table

variable {removable : List PyStr → Bool} {t : StorageTree} {task : FileGcTask} {tasks : List FileGcTask}
  {storagePath : PyStr}

/-! ## One file -/

/-- Nothing is at the path. -/
def Gone (t : StorageTree) (storagePath : PyStr) : Prop :=
  ∀ parts, storageParts storagePath = .ok parts → t.get? parts = none

/-- The path lies below the storage root, and the directories in front of its file can be opened. -/
structure Openable (t : StorageTree) (storagePath : PyStr) : Prop where
  parents : (openStorageParentNoFollow t storagePath).toOption.isSome = true
  fileName : ∀ parts, storageParts storagePath = .ok parts → isFileName (parts.getLastD []) = true

theorem openStorageParentNoFollow_ok {parts : List PyStr}
    (h : openStorageParentNoFollow t storagePath = .ok parts) : storageParts storagePath = .ok parts := by
  obtain ⟨parts', hparts, h⟩ := Except.bind_ok_iff.mp h
  obtain ⟨-, -, h⟩ := Except.bind_ok_iff.mp h
  cases h
  exact hparts

/-- Nothing comes into being. -/
theorem pruneDirectories_none {path parts : List PyStr} (h : t.get? parts = none) :
    ∀ t' ∈ pruneDirectories removable t path, t'.get? parts = none := by
  induction path generalizing t with
  | nil => exact nofun
  | cons name path ih =>
    rw [pruneDirectories]
    split
    · have hremoved : (t.remove (name :: path).reverse).get? parts = none :=
        FileTree.get?_remove_eq_none h
      exact List.forall_mem_cons.mpr ⟨hremoved, ih hremoved⟩
    · exact nofun

theorem safeUnlinkGcPath_none {trees : List StorageTree} {parts : List PyStr}
    (hunlink : safeUnlinkGcPath removable t storagePath = .ok trees) (h : t.get? parts = none) :
    ∀ t' ∈ trees, t'.get? parts = none := by
  obtain ⟨parts', -, hunlink⟩ := Except.bind_ok_iff.mp hunlink
  obtain ⟨entry, -, hunlink⟩ := Except.bind_ok_iff.mp hunlink
  split at hunlink
  · cases hunlink
    exact nofun
  · split at hunlink
    · cases hunlink
      have hremoved : (t.remove parts').get? parts = none := FileTree.get?_remove_eq_none h
      exact List.forall_mem_cons.mpr ⟨hremoved, pruneDirectories_none hremoved⟩
    · cases hunlink
  · cases hunlink

/-- The deletion of a file that is gone succeeds exactly where the directories can be opened. -/
theorem safeUnlinkGcPath_gone (h : Gone t storagePath) :
    (∃ trees, safeUnlinkGcPath removable t storagePath = .ok trees) ↔ Openable t storagePath := by
  constructor
  · rintro ⟨trees, hunlink⟩
    obtain ⟨parts, hparent, hunlink⟩ := Except.bind_ok_iff.mp hunlink
    obtain ⟨entry, hentry, -⟩ := Except.bind_ok_iff.mp hunlink
    constructor
    · rw [hparent]
      rfl
    · intro parts' hparts'
      have hparts := openStorageParentNoFollow_ok hparent
      rw [hparts'] at hparts
      cases hparts
      unfold statEntry at hentry
      split at hentry
      · assumption
      · cases hentry
  · intro hopen
    cases hparent : openStorageParentNoFollow t storagePath with
    | error error =>
      have hparents := hopen.parents
      rw [hparent] at hparents
      cases hparents
    | ok parts =>
      have hparts := openStorageParentNoFollow_ok hparent
      refine ⟨[], ?_⟩
      unfold safeUnlinkGcPath
      rw [hparent, Except.ok_bind, statEntry, if_pos (hopen.fileName parts hparts), h parts hparts]
      rfl

/-! ## A batch of tasks -/

/-- What the deletion of the file of a task raises. -/
def unlinkError (removable : List PyStr → Bool) (t : StorageTree) (task : FileGcTask) :
    Option StorageError :=
  match safeUnlinkGcPath removable t task.storagePath with
  | .ok _ => none
  | .error error => some error

/-- The tree after the file of a task. -/
def afterUnlink (removable : List PyStr → Bool) (t : StorageTree) (task : FileGcTask) : StorageTree :=
  match safeUnlinkGcPath removable t task.storagePath with
  | .ok trees => trees.getLastD t
  | .error _ => t

/-- The tree after the files of tasks. -/
def treeAfter (removable : List PyStr → Bool) (t : StorageTree) (tasks : List FileGcTask) :
    StorageTree :=
  tasks.foldl (afterUnlink removable) t

theorem unlinkError_eq_none :
    unlinkError removable t task = none ↔
      ∃ trees, safeUnlinkGcPath removable t task.storagePath = .ok trees := by
  unfold unlinkError
  cases safeUnlinkGcPath removable t task.storagePath with
  | ok trees => simp
  | error error => simp

theorem deleteGcPaths_cons :
    (deleteGcPaths removable t (task :: tasks)).1 =
      ⟨task, unlinkError removable t task⟩ ::
        (deleteGcPaths removable (afterUnlink removable t task) tasks).1 := by
  rw [deleteGcPaths, unlinkError, afterUnlink]
  cases safeUnlinkGcPath removable t task.storagePath with
  | ok trees => rfl
  | error error => rfl

/-- Every task of the batch has its turn, in the tree that the tasks before it left. -/
theorem mem_deleteGcPaths {outcome : GcOutcome} :
    outcome ∈ (deleteGcPaths removable t tasks).1 ↔
      ∃ before after, tasks = before ++ outcome.task :: after ∧
        outcome.error = unlinkError removable (treeAfter removable t before) outcome.task := by
  induction tasks generalizing t with
  | nil => simp [deleteGcPaths]
  | cons task tasks ih =>
    rw [deleteGcPaths_cons, List.mem_cons, ih]
    constructor
    · rintro (rfl | ⟨before, after, rfl, herror⟩)
      · exact ⟨[], tasks, rfl, rfl⟩
      · exact ⟨task :: before, after, rfl, herror⟩
    · rintro ⟨before, after, hsplit, herror⟩
      cases before with
      | nil =>
        cases hsplit
        have herror : outcome.error = unlinkError removable t outcome.task := herror
        left
        rw [← herror]
      | cons first before =>
        cases hsplit
        exact .inr ⟨before, after, rfl, herror⟩

/-- A file that is gone stays gone. -/
theorem Gone.afterUnlink (h : Gone t storagePath) : Gone (afterUnlink removable t task) storagePath := by
  intro parts hparts
  unfold Files.afterUnlink
  cases hunlink : safeUnlinkGcPath removable t task.storagePath with
  | error error => exact h parts hparts
  | ok trees =>
    show FileTree.get? (trees.getLastD t) parts = none
    rw [List.getLastD_eq_getLast?]
    cases hlast : trees.getLast? with
    | none => exact h parts hparts
    | some t' => exact safeUnlinkGcPath_none hunlink (h parts hparts) t' (List.mem_of_getLast? hlast)

theorem Gone.treeAfter (h : Gone t storagePath) : Gone (treeAfter removable t tasks) storagePath := by
  induction tasks generalizing t with
  | nil => exact h
  | cons task tasks ih => exact ih h.afterUnlink

/-! ## The transaction -/

theorem applyOutcome_ids {now : Int} {table : FileGcTable} {outcome : GcOutcome} {id : Nat} :
    id ∈ (table.applyOutcome now outcome).rows.map FileGcTask.id ↔
      id ∈ table.rows.map FileGcTask.id ∧ (outcome.task.id = id → outcome.error ≠ none) := by
  unfold FileGcTable.applyOutcome
  cases outcome.error with
  | none =>
    simp only [List.mem_map, List.mem_filter]
    constructor
    · rintro ⟨row, ⟨hrow, hne⟩, rfl⟩
      exact ⟨⟨row, hrow, rfl⟩, fun heq => absurd heq.symm (by simpa using hne)⟩
    · rintro ⟨⟨row, hrow, rfl⟩, hne⟩
      exact ⟨row, ⟨hrow, by simpa using fun heq => hne heq.symm⟩, rfl⟩
  | some error =>
    have hids := map_updateWhere (p := fun row => decide (row.id = outcome.task.id))
      (f := FileGcTask.postpone now outcome error) (g := FileGcTask.id) (fun _ => rfl) table.rows
    rw [hids]
    simp

/-- The tasks of the outcomes without an error go, and no others. -/
theorem foldl_applyOutcome_ids {now : Int} {table : FileGcTable} {outcomes : List GcOutcome} {id : Nat} :
    id ∈ (outcomes.foldl (FileGcTable.applyOutcome now) table).rows.map FileGcTask.id ↔
      id ∈ table.rows.map FileGcTask.id ∧
        ∀ outcome ∈ outcomes, outcome.task.id = id → outcome.error ≠ none := by
  induction outcomes generalizing table with
  | nil => simp
  | cons outcome outcomes ih =>
    rw [List.foldl_cons, ih, applyOutcome_ids, List.forall_mem_cons, and_assoc]

theorem mem_interleave {limit : Nat} {pendings retries : List FileGcTask}
    (h : task ∈ interleave limit pendings retries) : task ∈ pendings ∨ task ∈ retries := by
  induction limit, pendings, retries using interleave.induct with
  | case1 => cases h
  | case2 pending pendings retries =>
    exact .inl (List.mem_cons.mpr (.inl (List.mem_singleton.mp h)))
  | case3 limit pending pendings retry retries ih =>
    rcases List.mem_cons.mp h with rfl | h
    · exact .inl List.mem_cons_self
    · rcases List.mem_cons.mp h with rfl | h
      · exact .inr List.mem_cons_self
      · exact (ih h).imp (List.mem_cons_of_mem _) (List.mem_cons_of_mem _)
  | case4 limit pending pendings ih =>
    rcases List.mem_cons.mp h with rfl | h
    · exact .inl List.mem_cons_self
    · exact (ih h).imp (List.mem_cons_of_mem _) id
  | case5 limit retry retries ih =>
    rw [interleave] at h
    rcases List.mem_cons.mp h with rfl | h
    · exact .inr List.mem_cons_self
    · exact (ih h).imp id (List.mem_cons_of_mem _)
  | case6 limit =>
    rw [interleave] at h
    cases h

theorem mem_loadDue {table : FileGcTable} {now : Int} {limit : Nat} (h : task ∈ table.loadDue now limit) :
    task ∈ table.rows := by
  rcases mem_interleave h with h | h
  · exact (List.mem_filter.mp (List.mem_mergeSort.mp (List.mem_of_mem_take h))).1
  · exact (List.mem_filter.mp (List.mem_mergeSort.mp (List.mem_of_mem_take h))).1

/-- The tasks that a run takes away. -/
theorem drainFileGc_removes {s : GcState} {now : Int} {limit : Nat} (htask : task ∈ s.tasks.rows) :
    task.id ∉ (drainFileGc removable now limit s).1.tasks.rows.map FileGcTask.id ↔
      ∃ before after, s.tasks.loadDue now limit = before ++ task :: after ∧
        unlinkError removable (treeAfter removable s.tree before) task = none := by
  have hid : task.id ∈ s.tasks.rows.map FileGcTask.id := List.mem_map.mpr ⟨task, htask, rfl⟩
  rw [drainFileGc, foldl_applyOutcome_ids, not_and]
  constructor
  · intro h
    have hremoved := h hid
    push Not at hremoved
    obtain ⟨⟨other, error⟩, houtcome, hother, herror⟩ := hremoved
    obtain ⟨before, after, hsplit, hunlink⟩ := mem_deleteGcPaths.mp houtcome
    have hdue : other ∈ s.tasks.loadDue now limit := by simp [hsplit]
    obtain rfl := s.tasks.ids.eq_of_mem (mem_loadDue hdue) htask hother
    exact ⟨before, after, hsplit, hunlink.symm.trans herror⟩
  · rintro ⟨before, after, hsplit, hunlink⟩ - hkept
    refine hkept ⟨task, none⟩ (mem_deleteGcPaths.mpr ⟨before, after, hsplit, hunlink.symm⟩) rfl rfl

/-! ## After a crash -/

/-- After a crash before the transaction, a run takes the task of a file that is gone away if and only
    if the task is in its batch and the directories in front of the file can still be opened when the
    turn of the task comes. -/
theorem file_gc_removes_gone (s : GcState) (removable removable' : List PyStr → Bool) (now : Int)
    (limit changes : Nat) (now' : Int) (limit' : Nat) :
    let crashed := s.crash removable now limit changes
    (∀ task ∈ s.tasks.rows, Gone crashed.tree task.storagePath →
      task.id ∉ (drainFileGc removable' now' limit' crashed).1.tasks.rows.map FileGcTask.id) ↔
    ∀ task ∈ s.tasks.rows, Gone crashed.tree task.storagePath →
      ∃ before after, s.tasks.loadDue now' limit' = before ++ task :: after ∧
        Openable (treeAfter removable' crashed.tree before) task.storagePath := by
  intro crashed
  refine forall₂_congr fun task htask => forall_congr' fun hgone => ?_
  rw [drainFileGc_removes (s := crashed) htask]
  refine exists₂_congr fun before after => and_congr_right fun _ => ?_
  rw [unlinkError_eq_none, safeUnlinkGcPath_gone hgone.treeAfter]

/-! ## A file in a directory of its own -/

def attachmentPath : PyStr := PyStr.ofChars "attachments/m1/a.bin".toList

def attachmentTable (task : FileGcTask) : FileGcTable :=
  ⟨[task], by simp [UniqueKey], by simp [UniqueKey]⟩

def storeBefore : GcState where
  tasks := attachmentTable ⟨1, attachmentPath, 0, none, none, 0⟩
  tree := .dir true [PyStr.ofChars "attachments".toList] fun _ =>
    .dir true [PyStr.ofChars "m1".toList] fun _ =>
      .dir true [PyStr.ofChars "a.bin".toList] fun _ => .file ⟨⟨1, 2, 3, 4, 5, 6⟩, none⟩

/-- The tree after the unlink of the file and the removal of its two directories. -/
def emptiedTree : StorageTree :=
  let parts := pathParts attachmentPath
  ((storeBefore.tree.remove parts).remove (parts.take 2)).remove (parts.take 1)

theorem loadDue_attachmentTable {now : Int} {limit : Nat}
    (h : task.nextAttemptAt = none ∨ task.nextAttemptAt.any (· ≤ now) = true) :
    (attachmentTable task).loadDue now (limit + 1) = [task] := by
  cases hnext : task.nextAttemptAt with
  | none =>
    cases limit <;> simp [FileGcTable.loadDue, attachmentTable, hnext, interleave]
  | some next =>
    have hle : next ≤ now := by simpa [hnext] using h
    cases limit <;> simp [FileGcTable.loadDue, attachmentTable, hnext, interleave, hle]

/-- After a crash between the deletion of an attachment with its directories and the transaction, the
    next two runs both count a failed attempt at the file that is gone. -/
theorem file_gc_keeps_gone :
    let crashed := storeBefore.crash (fun _ => true) 10 5 3
    let rerun := (drainFileGc (fun _ => true) 20 5 crashed).1
    Gone crashed.tree attachmentPath ∧
      rerun.tasks.rows =
        [⟨1, attachmentPath, 1, some (.cannotOpen .missing), some 50, 20⟩] ∧
      (drainFileGc (fun _ => true) 60 5 rerun).1.tasks.rows =
        [⟨1, attachmentPath, 2, some (.cannotOpen .missing), some 120, 60⟩] := by
  intro crashed rerun
  have hcrashed : crashed = ⟨storeBefore.tasks, emptiedTree⟩ := by
    show storeBefore.crash (fun _ => true) 10 5 3 = _
    rw [GcState.crash, storeBefore, loadDue_attachmentTable (.inl rfl)]
    rfl
  have hrerun : rerun =
      ⟨attachmentTable ⟨1, attachmentPath, 1, some (.cannotOpen .missing), some 50, 20⟩,
        emptiedTree⟩ := by
    show (drainFileGc (fun _ => true) 20 5 crashed).1 = _
    rw [hcrashed, drainFileGc, storeBefore, loadDue_attachmentTable (.inl rfl)]
    rfl
  rw [hcrashed, hrerun]
  refine ⟨?_, rfl, ?_⟩
  · intro parts hparts
    cases hparts
    rfl
  · rw [drainFileGc, loadDue_attachmentTable (.inr rfl)]
    rfl

end RapidInbox.Files

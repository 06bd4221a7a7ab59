import RapidInbox.Ingest.Exchange

/-!
# What a worker writes and when it leaves

`drainProtocol` follows the loop test of a worker: a worker that leaves `writer_loop` has seen
`running_` cleared and then an empty queue.  Along the way it writes files and commits only while it
owns a batch, and whatever it writes at a manifest path is the manifest of the message filed there.
-/

namespace RapidInbox

open Conc

/-- What a worker has last learnt from the loop test. -/
inductive WorkerPhase where
  | working
  | stopped
  | drained
  deriving DecidableEq, Repr

/-- The protocol of the loop test. -/
def drainProtocol : Protocol workerSig WorkerState WorkerPhase where
  agrees w _ := ∀ job ∈ w.batch, job.Filed
  pre op w _ :=
    match op with
    | .writeFileAtomic path content => w.batch ≠ [] ∧ InOrder path content
    | .writeSqliteRecords _ => w.batch ≠ []
    | _ => True
  post op phase answer phase' :=
    match op, answer with
    | .loadRunning, running => phase' = bif running then .working else .stopped
    | .queueSize, (size : Nat) =>
      phase' = if size = 0 ∧ phase = .stopped then .drained else .working
    | .popBatch _, jobs => phase' = .working ∧ ∀ job ∈ jobs, job.Filed
    | _, _ => phase' = phase

namespace Worker

variable {C : Config} {w : WorkerState} {phase : WorkerPhase}

/-- The artifacts of a parsed message lie outside `manifests/`. -/
theorem parsedArtifacts_inOrder (C : Config) (job : MailJob) :
    ∀ file ∈ parsedArtifacts (prepareResult C job (C.parseMessage job.rawContent)),
      InOrder file.1 file.2 := by
  intro file hfile
  cases hparse : C.parseMessage job.rawContent with
  | failed message => simp [hparse, prepareResult, parsedArtifacts] at hfile
  | parsed mail =>
    obtain ⟨htext, hhtml⟩ := C.paths_unset _ _ hparse
    refine inOrder_of_head ?_ file.2
    simp only [hparse, prepareResult, parsedArtifacts, prepareParsedArtifactMetadata, htext,
      hhtml, List.mem_append, List.mem_map, Option.mem_toList] at hfile
    rcases hfile with (⟨path, hpath, rfl⟩ | ⟨path, hpath, rfl⟩) | ⟨a, ⟨a', -, rfl⟩, rfl⟩
    · split at hpath
      · cases hpath
      · obtain rfl := Option.some.inj hpath
        simp [RapidInbox.textBodyPath, datedPath]
    · split at hpath
      · cases hpath
      · obtain rfl := Option.some.inj hpath
        simp [RapidInbox.htmlBodyPath, datedPath]
    · have hhead : ((prepareAttachment C job a').storagePath).head? = some 'a' := by
        unfold prepareAttachment attachmentPath
        rfl
      rw [hhead]
      decide

theorem pendingArtifacts?_inOrder {job : MailJob} (hjob : job.Filed)
    {files : List (Text × FileContent)} (h : pendingArtifacts? job = some files) :
    ∀ file ∈ files, InOrder file.1 file.2 := by
  unfold pendingArtifacts? at h
  split at h
  · cases h
  · split at h
    · cases h
    · cases h
      intro file hfile
      simp only [List.mem_cons, List.mem_nil_iff, or_false] at hfile
      rcases hfile with rfl | rfl
      · exact inOrder_raw hjob _
      · exact inOrder_manifest hjob none

theorem finalManifest?_inOrder {job : MailJob} (hjob : job.Filed) {result : ParseResult}
    {file : Text × FileContent} (h : finalManifest? job result = some file) :
    InOrder file.1 file.2 := by
  unfold finalManifest? at h
  split at h
  · cases h
  · split at h
    · cases h
      exact inOrder_manifest hjob (some result)
    · split at h
      · cases h
      · split at h
        · cases h
        · cases h
          exact inOrder_manifest hjob none

/-- The first letter of a name survives the insertion of `.error`. -/
theorem lastIndexOf?_ne_zero {needle text : Text} (hneedle : ¬ needle.isPrefixOf text) :
    lastIndexOf? needle text ≠ some 0 := by
  intro h
  have hfound := List.find?_some h
  exact hneedle (by simpa using hfound)

theorem quarantinePath_head (job : MailJob) : (quarantinePath job).head? = some 'q' := by
  obtain ⟨tail, htail⟩ : ∃ tail, (if "manifests/".toList.isPrefixOf job.manifestPath then
      "quarantine/".toList ++ job.manifestPath.drop "manifests/".toList.length
      else "quarantine/".toList ++ job.messageId ++ ".json".toList) = 'q' :: tail := by
    split
    · exact ⟨_, rfl⟩
    · exact ⟨_, rfl⟩
  unfold quarantinePath
  simp only [htail]
  split
  · rfl
  · rename_i i hi
    have hne : i ≠ 0 := by
      rintro rfl
      exact lastIndexOf?_ne_zero (by simp [List.isPrefixOf]) hi
    obtain ⟨k, rfl⟩ := Nat.exists_eq_succ_of_ne_zero hne
    rfl

/-! ## Writing a batch -/

theorem drains_writeFile (hagree : ∀ job ∈ w.batch, job.Filed) (hbatch : w.batch ≠ [])
    {path : Text} {content : FileContent} (h : InOrder path content) :
    Act.KeepsAt drainProtocol (call (.writeFileAtomic path content)) w phase :=
  .call hagree ⟨hbatch, h⟩ fun _ _ hp => hp

theorem drains_writeFiles (hagree : ∀ job ∈ w.batch, job.Filed) (hbatch : w.batch ≠ [])
    {files : List (Text × FileContent)} (h : ∀ file ∈ files, InOrder file.1 file.2) :
    Act.KeepsAt drainProtocol (writeFiles files) w phase := by
  induction files with
  | nil => exact .pure true
  | cons file files ih =>
    obtain ⟨hfile, hfiles⟩ := List.forall_mem_cons.mp h
    refine .bind (drains_writeFile hagree hbatch hfile) ?_
    intro written
    exact .ite _ (.pure false) (ih hfiles)

theorem drains_writeFiles? (hagree : ∀ job ∈ w.batch, job.Filed) (hbatch : w.batch ≠ [])
    {files : Option (List (Text × FileContent))}
    (h : ∀ fs, files = some fs → ∀ file ∈ fs, InOrder file.1 file.2) :
    Act.KeepsAt drainProtocol (writeFiles? files) w phase := by
  cases files with
  | none => exact .pure false
  | some files => exact drains_writeFiles hagree hbatch (h files rfl)

theorem drains_writeStorageArtifact (hagree : ∀ job ∈ w.batch, job.Filed) (hbatch : w.batch ≠ [])
    {job : MailJob} (hjob : job.Filed) :
    Act.KeepsAt drainProtocol
      (writeStorageArtifact job (prepareResult C job (C.parseMessage job.rawContent))) w phase := by
  have hpending : ∀ fs, (if job.artifactsPersisted then some [] else pendingArtifacts? job) =
      some fs → ∀ file ∈ fs, InOrder file.1 file.2 := by
    intro fs hfs
    split at hfs
    · cases hfs
      simp
    · exact pendingArtifacts?_inOrder hjob hfs
  have hfinal : ∀ fs, (finalManifest? job
      (prepareResult C job (C.parseMessage job.rawContent))).map ([·]) = some fs →
      ∀ file ∈ fs, InOrder file.1 file.2 := by
    intro fs hfs
    obtain ⟨file, hfile, rfl⟩ := Option.map_eq_some_iff.mp hfs
    simpa using finalManifest?_inOrder hjob hfile
  refine .bind (drains_writeFiles? hagree hbatch hpending) ?_
  intro pending
  refine .ite _ (.pure false)
    (.bind (drains_writeFiles hagree hbatch (parsedArtifacts_inOrder C job)) ?_)
  intro parsed
  exact .ite _ (.pure false) (drains_writeFiles? hagree hbatch hfinal)

theorem drains_writeBatch (hagree : ∀ job ∈ w.batch, job.Filed) (hbatch : w.batch ≠ [])
    {jobs : List MailJob} (hjobs : ∀ job ∈ jobs, job.Filed) :
    Act.KeepsAt drainProtocol (writeBatch C jobs) w phase := by
  have hartifacts : Act.KeepsAt drainProtocol (writeStorageArtifacts (jobs.map fun job =>
      (job, prepareResult C job (C.parseMessage job.rawContent)))) w phase := by
    induction jobs with
    | nil => exact .pure true
    | cons job jobs ih =>
      obtain ⟨hjob, hrest⟩ := List.forall_mem_cons.mp hjobs
      refine .bind (drains_writeStorageArtifact hagree hbatch hjob) ?_
      intro written
      exact .ite _ (.pure false) (ih hrest)
  refine .bind hartifacts ?_
  intro written
  exact .ite _ (.pure false) (.call hagree hbatch fun _ _ hp => hp)

theorem drains_tryWriteBatch (hagree : ∀ job ∈ w.batch, job.Filed) (hbatch : w.batch ≠ [])
    (attempts : Nat) {jobs : List MailJob} (hjobs : ∀ job ∈ jobs, job.Filed) :
    Act.KeepsAt drainProtocol (tryWriteBatch C attempts jobs) w phase := by
  induction attempts with
  | zero => exact .pure false
  | succ attempts ih =>
    refine .bind (drains_writeBatch hagree hbatch hjobs) ?_
    intro written
    exact .ite _ (.pure true) ih

theorem drains_writeBatchWithIsolation (C : Config) (hagree : ∀ job ∈ w.batch, job.Filed)
    (hbatch : w.batch ≠ []) {jobs : List MailJob} (hjobs : ∀ job ∈ jobs, job.Filed) :
    Act.KeepsAt drainProtocol (writeBatchWithIsolation C jobs) w phase := by
  fun_induction writeBatchWithIsolation C jobs with
  | case1 => exact .pure ()
  | case2 poison =>
    refine .bind (drains_tryWriteBatch hagree hbatch _ hjobs) ?_
    intro written
    have hquarantine : InOrder (quarantinePath poison)
        (quarantineRecord poison (C.ingestMaxRetries + 1)) := by
      refine inOrder_of_head ?_ _
      rw [quarantinePath_head]
      decide
    refine .ite _ (.pure ()) (.bind (drains_writeFile hagree hbatch hquarantine) ?_)
    intro recorded
    exact .pure ()
  | case3 first second rest batch ihLeft ihRight =>
    refine .bind (drains_tryWriteBatch hagree hbatch _ hjobs) ?_
    intro written
    refine .ite _ (.pure ())
      (.bind (ihLeft fun job hjob => hjobs job (List.mem_of_mem_take hjob)) ?_)
    intro _
    exact ihRight fun job hjob => hjobs job (List.mem_of_mem_drop hjob)

/-! ## One turn of the loop -/

/-- What a worker between two turns has established. -/
def TurnDone (w : WorkerState) (continues : Bool) (phase : WorkerPhase) : Prop :=
  w.batch = [] ∧ (continues = false → phase = .drained)

theorem drains_call (op : WorkerOp) {Q : WorkerState → op.Answer → WorkerPhase → Prop}
    (hagree : ∀ job ∈ w.batch, job.Filed) (hpre : drainProtocol.pre op w phase)
    (hQ : ∀ r phase', drainProtocol.post op phase r phase' → Q w r phase') :
    Act.wp drainProtocol (call op) Q w phase :=
  ⟨hagree, hpre, hQ⟩

theorem drains_loopTest {Q : WorkerState → Bool → WorkerPhase → Prop}
    (hagree : ∀ job ∈ w.batch, job.Filed)
    (hQ : ∀ continues phase', (continues = false → phase' = .drained) → Q w continues phase') :
    Act.wp drainProtocol loopTest Q w phase := by
  unfold loopTest
  simp only [Act.wp_bind, Act.wp_ite, Act.wp_pure]
  refine drains_call _ hagree trivial ?_
  intro running phase' hphase
  cases running with
  | true => exact hQ true phase' (by simp)
  | false =>
    refine drains_call _ hagree trivial ?_
    intro size phase'' hsize
    obtain rfl : phase' = .stopped := hphase
    refine hQ _ phase'' ?_
    intro hzero
    have hsize' : phase'' = if size = 0 ∧ WorkerPhase.stopped = .stopped then .drained
        else .working := hsize
    rw [hsize', if_pos]
    exact ⟨by simpa using hzero, rfl⟩

/-- A worker leaves the loop only when it has seen the end of the run and then an empty queue. -/
theorem drains_writerLoop (C : Config) (hidle : w.batch = []) :
    Act.wp drainProtocol (writerLoop C) TurnDone w phase := by
  have hnone : ∀ job ∈ w.batch, job.Filed := by simp [hidle]
  unfold writerLoop
  simp only [Act.wp_bind, Act.wp_ite, Act.wp_pure, Act.wp_modify]
  refine drains_loopTest hnone ?_
  intro continues phase' hdrained
  split
  · rename_i hleave
    exact ⟨hidle, fun _ => hdrained (by simpa using hleave)⟩
  · refine drains_call _ hnone trivial ?_
    rintro batch phase'' ⟨-, hfiled⟩
    split
    · rename_i hempty
      exact ⟨List.isEmpty_iff.mp hempty, by simp⟩
    · rename_i hne
      have hbatch : batch ≠ [] := by simpa using hne
      refine (drains_writeBatchWithIsolation C hfiled hbatch hfiled).wp ?_
      intro _
      exact drains_call _ hfiled trivial fun _ _ _ => ⟨rfl, by simp⟩

end Worker

end RapidInbox

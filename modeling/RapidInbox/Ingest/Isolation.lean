import RapidInbox.Ingest.Worker

/-!
# Isolation of poisoned messages

`IngestApp::try_write_batch` and `write_batch_with_isolation` (`ingest_app.cpp:176-270`) as they call
`BatchWriter::write_batch` and `write_quarantine_record`.  The two calls are operations of a monad in
which they may throw, so the same text runs against the shared state of the workers and against a
recorder that answers each call with the next outcome of any sequence.
-/

namespace RapidInbox

/-- The calls of the batch writer that the isolation makes; either may throw an exception, of which
    the text is kept. -/
structure BatchCalls (m : Type → Type) (Job : Type) where
  writeBatch : List Job → m Unit
  writeQuarantineRecord : Job → Text → Nat → m Unit

namespace Isolation

variable {m : Type → Type} [Monad m] [MonadExceptOf Text m] {Job : Type}

/-- The loop of `try_write_batch`: whether an attempt succeeded, and `last_error`. -/
def tryWriteAttempts (W : BatchCalls m Job) (batch : List Job) : Nat → Text → m (Bool × Text)
  | 0, lastError => return (false, lastError)
  | attempts + 1, lastError => do
      let failure ← tryCatch (do W.writeBatch batch; return none) fun error => return some error
      match failure with
      | none => return (true, lastError)
      | some error => tryWriteAttempts W batch attempts error

/-- `try_write_batch`.  The configuration bounds `ingest_max_retries` by 100, so that the sum does
    not overflow. -/
def tryWriteBatch (W : BatchCalls m Job) (maxRetries : Nat) (batch : List Job) (lastError : Text) :
    m (Bool × Text) :=
  let attempts := if batch.length = 1 then maxRetries + 1 else 1
  tryWriteAttempts W batch attempts lastError

/-- `write_batch_with_isolation`; an exception of the quarantine record is logged. -/
def writeBatchWithIsolation (W : BatchCalls m Job) (maxRetries : Nat) (batch : List Job) : m Unit := do
  if batch.isEmpty then
    return
  let (written, lastError) ← tryWriteBatch W maxRetries batch []
  if written then
    return
  match batch with
  | [] => return
  | [poison] =>
    tryCatch (W.writeQuarantineRecord poison lastError (maxRetries + 1)) fun _ => return
  | first :: second :: rest =>
    let batch := first :: second :: rest
    let midpoint := batch.length / 2
    writeBatchWithIsolation W maxRetries (batch.take midpoint)
    writeBatchWithIsolation W maxRetries (batch.drop midpoint)
termination_by batch.length
decreasing_by
  all_goals simp only [List.length_take, List.length_drop, List.length_cons]; omega

variable {W : BatchCalls m Job} {maxRetries : Nat}

theorem writeBatchWithIsolation_nil : writeBatchWithIsolation W maxRetries [] = pure () := by
  unfold writeBatchWithIsolation
  rfl

theorem writeBatchWithIsolation_singleton (poison : Job) :
    writeBatchWithIsolation W maxRetries [poison] =
      tryWriteAttempts W [poison] (maxRetries + 1) [] >>= fun result =>
        if result.1 then pure ()
        else tryCatch (W.writeQuarantineRecord poison result.2 (maxRetries + 1)) fun _ => pure () := by
  unfold writeBatchWithIsolation
  rfl

theorem writeBatchWithIsolation_of_two_le {batch : List Job} (h : 2 ≤ batch.length) :
    writeBatchWithIsolation W maxRetries batch =
      tryWriteAttempts W batch 1 [] >>= fun result =>
        if result.1 then pure ()
        else
          writeBatchWithIsolation W maxRetries (batch.take (batch.length / 2)) >>= fun _ =>
            writeBatchWithIsolation W maxRetries (batch.drop (batch.length / 2)) := by
  match batch, h with
  | first :: second :: rest, _ =>
    have hattempts : (if (first :: second :: rest).length = 1 then maxRetries + 1 else 1) = 1 := by
      simp
    conv => lhs; unfold writeBatchWithIsolation
    rw [tryWriteBatch, hattempts]
    rfl

end Isolation

/-! ## Recorded calls -/

/-- A call of the batch writer. -/
inductive WriterCall (Job : Type) where
  | writeBatch (batch : List Job)
  | writeQuarantineRecord (job : Job) (lastError : Text) (attempts : Nat)
  deriving DecidableEq, Repr

/-- A call with its outcome: the text of the exception it threw, if it did. -/
structure CallRecord (Job : Type) where
  call : WriterCall Job
  outcome : Option Text
  deriving DecidableEq, Repr

namespace CallRecord

variable {Job : Type}

/-- A call of `write_batch` that threw. -/
def failed (batch : List Job) (error : Text) : CallRecord Job := ⟨.writeBatch batch, some error⟩

/-- The jobs a call has written. -/
def written : CallRecord Job → List Job
  | ⟨.writeBatch batch, none⟩ => batch
  | _ => []

/-- The job a call was to quarantine. -/
def quarantined : CallRecord Job → List Job
  | ⟨.writeQuarantineRecord job _ _, _⟩ => [job]
  | _ => []

/-- The jobs a call is the last one for. -/
def settled (record : CallRecord Job) : List Job := record.written ++ record.quarantined

@[simp] theorem settled_failed (batch : List Job) (error : Text) : (failed batch error).settled = [] := rfl

end CallRecord

/-- The monad that records the calls. -/
abbrev Recorder (Job : Type) := ExceptT Text (StateM (List (CallRecord Job)))

namespace Recorder

variable {Job α β : Type}

/-- The result of an action after some calls, and all calls then. -/
def runFrom (x : Recorder Job α) (calls : List (CallRecord Job)) :
    Except Text α × List (CallRecord Job) :=
  (x.run.run calls).run

@[simp] theorem runFrom_pure (a : α) (calls : List (CallRecord Job)) :
    runFrom (pure a) calls = (.ok a, calls) := rfl

@[simp] theorem runFrom_throw (error : Text) (calls : List (CallRecord Job)) :
    runFrom (throw error : Recorder Job α) calls = (.error error, calls) := rfl

theorem runFrom_bind (x : Recorder Job α) (f : α → Recorder Job β) (calls : List (CallRecord Job)) :
    (x >>= f).runFrom calls =
      match x.runFrom calls with
      | (.ok a, calls) => (f a).runFrom calls
      | (.error error, calls) => (.error error, calls) := by
  unfold runFrom
  rw [ExceptT.run_bind, StateT.run_bind]
  rcases h : (x.run.run calls).run with ⟨_ | a, calls'⟩
  · simp [h]
  · simp [h]

theorem runFrom_tryCatch (x : Recorder Job α) (handler : Text → Recorder Job α)
    (calls : List (CallRecord Job)) :
    (tryCatch x handler).runFrom calls =
      match x.runFrom calls with
      | (.ok a, calls) => (.ok a, calls)
      | (.error error, calls) => (handler error).runFrom calls := by
  unfold runFrom
  rw [ExceptT.run_tryCatch, StateT.run_bind]
  rcases h : (x.run.run calls).run with ⟨_ | a, calls'⟩
  · simp [h]
  · simp [h]

end Recorder

namespace Isolation

variable {Job : Type}

/-- The next outcome answers the call. -/
def perform (outcomes : Nat → Option Text) (call : WriterCall Job) : Recorder Job Unit := do
  let calls ← get
  let outcome := outcomes calls.length
  set (calls ++ [⟨call, outcome⟩])
  match outcome with
  | none => return
  | some error => throw error

/-- The calls of the batch writer under a sequence of outcomes. -/
def recorded (outcomes : Nat → Option Text) : BatchCalls (Recorder Job) Job where
  writeBatch batch := perform outcomes (.writeBatch batch)
  writeQuarantineRecord job lastError attempts :=
    perform outcomes (.writeQuarantineRecord job lastError attempts)

variable {outcomes : Nat → Option Text} {maxRetries : Nat}

@[simp] theorem recorded_writeBatch (batch : List Job) :
    (recorded outcomes).writeBatch batch = perform outcomes (.writeBatch batch) := rfl

@[simp] theorem recorded_writeQuarantineRecord (job : Job) (lastError : Text) (attempts : Nat) :
    (recorded outcomes).writeQuarantineRecord job lastError attempts =
      perform outcomes (.writeQuarantineRecord job lastError attempts) := rfl

theorem runFrom_perform (call : WriterCall Job) (calls : List (CallRecord Job)) :
    (perform outcomes call).runFrom calls =
      ((outcomes calls.length).elim (.ok ()) .error, calls ++ [⟨call, outcomes calls.length⟩]) := by
  show Recorder.runFrom (match outcomes calls.length with
    | none => (pure () : Recorder Job Unit)
    | some error => throw error) (calls ++ [⟨call, outcomes calls.length⟩]) = _
  cases outcomes calls.length with
  | none => rfl
  | some error => rfl

/-- The loop fails as often as it may, or succeeds after some failures. -/
theorem runFrom_tryWriteAttempts (outcomes : Nat → Option Text) (batch : List Job) (attempts : Nat) (lastError : Text)
    (calls : List (CallRecord Job)) :
    ∃ errors : List Text,
      (errors.length = attempts ∧
        (tryWriteAttempts (recorded outcomes) batch attempts lastError).runFrom calls =
          (.ok (false, errors.getLastD lastError), calls ++ errors.map (CallRecord.failed batch))) ∨
      (tryWriteAttempts (recorded outcomes) batch attempts lastError).runFrom calls =
        (.ok (true, errors.getLastD lastError),
          calls ++ errors.map (CallRecord.failed batch) ++ [⟨.writeBatch batch, none⟩]) := by
  induction attempts generalizing lastError calls with
  | zero => exact ⟨[], .inl ⟨rfl, by simp [tryWriteAttempts]⟩⟩
  | succ attempts ih =>
    unfold tryWriteAttempts
    rw [Recorder.runFrom_bind, Recorder.runFrom_tryCatch, Recorder.runFrom_bind]
    cases houtcome : outcomes calls.length with
    | none =>
      refine ⟨[], .inr ?_⟩
      simp [runFrom_perform, houtcome]
    | some error =>
      obtain ⟨errors, hrun⟩ := ih error (calls ++ [.failed batch error])
      refine ⟨error :: errors, ?_⟩
      rw [List.getLastD_cons]
      simpa [runFrom_perform, houtcome, CallRecord.failed] using hrun

/-! ## Every job is settled once -/

/-- A quarantine record is written for a job after the calls that `max_retries` allows have failed on
    the job alone, with the text of the last failure. -/
def RetriedAlone (maxRetries : Nat) (calls : List (CallRecord Job)) : Prop :=
  ∀ earlier job lastError attempts outcome later,
    calls = earlier ++ ⟨.writeQuarantineRecord job lastError attempts, outcome⟩ :: later →
      attempts = maxRetries + 1 ∧ ∃ before, ∃ errors : List Text,
        earlier = before ++ errors.map (CallRecord.failed [job]) ∧
          errors.length = maxRetries + 1 ∧ errors.getLast? = some lastError

/-- What the calls for a batch do with its jobs. -/
structure Isolates (maxRetries : Nat) (batch : List Job) (calls : List (CallRecord Job)) : Prop where
  settled : calls.flatMap CallRecord.settled = batch
  contiguous : ∀ record ∈ calls, ∀ jobs, record.call = .writeBatch jobs → jobs <:+: batch
  retriedAlone : RetriedAlone maxRetries calls

theorem retriedAlone_append {xs ys : List (CallRecord Job)} (hx : RetriedAlone maxRetries xs)
    (hy : RetriedAlone maxRetries ys) : RetriedAlone maxRetries (xs ++ ys) := by
  intro earlier job lastError attempts outcome later heq
  rcases List.append_eq_append_iff.mp heq with ⟨middle, rfl, hys⟩ | ⟨middle, hxs, hlater⟩
  · obtain ⟨hattempts, before, errors, rfl, hrest⟩ := hy _ _ _ _ _ _ hys
    exact ⟨hattempts, xs ++ before, errors, by rw [List.append_assoc], hrest⟩
  · cases middle with
    | nil =>
      obtain ⟨hattempts, before, errors, hbefore, hlength, -⟩ := hy [] _ _ _ _ _ hlater.symm
      have hlengths := congrArg List.length hbefore
      simp [hlength] at hlengths
    | cons record middle =>
      cases hlater
      exact hx _ _ _ _ _ _ hxs

theorem quarantine_not_mem_failed {batch : List Job} {errors : List Text} {job : Job} {lastError : Text}
    {attempts : Nat} {outcome : Option Text} :
    ⟨.writeQuarantineRecord job lastError attempts, outcome⟩ ∉ errors.map (CallRecord.failed batch) := by
  intro hmem
  obtain ⟨error, -, hfailed⟩ := List.mem_map.mp hmem
  cases hfailed

theorem retriedAlone_failed (batch : List Job) (errors : List Text) :
    RetriedAlone maxRetries (errors.map (CallRecord.failed batch)) := by
  intro earlier job lastError attempts outcome later heq
  have hmem : ⟨.writeQuarantineRecord job lastError attempts, outcome⟩ ∈
      errors.map (CallRecord.failed batch) := by simp [heq]
  exact absurd hmem quarantine_not_mem_failed

theorem retriedAlone_written (batch : List Job) :
    RetriedAlone maxRetries [⟨.writeBatch batch, none⟩] := by
  intro earlier job lastError attempts outcome later heq
  have hmem : (⟨.writeQuarantineRecord job lastError attempts, outcome⟩ : CallRecord Job) ∈
      [⟨.writeBatch batch, none⟩] := by simp [heq]
  cases List.mem_singleton.mp hmem

/-- The record of a job whose last permitted attempt has failed. -/
theorem retriedAlone_quarantine {job : Job} {errors : List Text} (hlength : errors.length = maxRetries + 1)
    (outcome : Option Text) :
    RetriedAlone maxRetries (errors.map (CallRecord.failed [job]) ++
      [⟨.writeQuarantineRecord job (errors.getLastD []) (maxRetries + 1), outcome⟩]) := by
  have hlast : errors.getLast? = some (errors.getLastD []) := by
    cases errors with
    | nil => cases hlength
    | cons error errors => simp [List.getLast?_cons]
  intro earlier job' lastError attempts outcome' later heq
  rcases List.eq_nil_or_concat later with rfl | ⟨later, last, rfl⟩
  · obtain ⟨hearlier, hrecord⟩ := List.append_inj' heq rfl
    cases hrecord
    exact ⟨rfl, [], errors, hearlier.symm, hlength, hlast⟩
  · rw [List.concat_eq_append, ← List.cons_append, ← List.append_assoc] at heq
    obtain ⟨hfailed, -⟩ := List.append_inj' heq rfl
    have hmem : ⟨.writeQuarantineRecord job' lastError attempts, outcome'⟩ ∈
        errors.map (CallRecord.failed [job]) := by simp [hfailed]
    exact absurd hmem quarantine_not_mem_failed

theorem flatMap_settled_failed (batch : List Job) (errors : List Text) :
    (errors.map (CallRecord.failed batch)).flatMap CallRecord.settled = [] := by
  induction errors with
  | nil => rfl
  | cons error errors ih => simp [ih]

/-- The attempts at a batch, the last of which succeeded. -/
theorem isolates_written (batch : List Job) (errors : List Text) :
    Isolates maxRetries batch
      (errors.map (CallRecord.failed batch) ++ [⟨.writeBatch batch, none⟩]) where
  settled := by
    rw [List.flatMap_append, flatMap_settled_failed]
    simp [CallRecord.settled, CallRecord.written, CallRecord.quarantined]
  contiguous := by
    intro record hrecord jobs hcall
    rcases List.mem_append.mp hrecord with hrecord | hrecord
    · obtain ⟨error, -, rfl⟩ := List.mem_map.mp hrecord
      cases hcall
      exact List.infix_rfl
    · cases List.mem_singleton.mp hrecord
      cases hcall
      exact List.infix_rfl
  retriedAlone := retriedAlone_append (retriedAlone_failed batch errors) (retriedAlone_written batch)

/-- The attempts at a job alone and its quarantine record, written or not. -/
theorem isolates_quarantined {job : Job} {errors : List Text} (hlength : errors.length = maxRetries + 1)
    (outcome : Option Text) :
    Isolates maxRetries [job] (errors.map (CallRecord.failed [job]) ++
      [⟨.writeQuarantineRecord job (errors.getLastD []) (maxRetries + 1), outcome⟩]) where
  settled := by
    rw [List.flatMap_append, flatMap_settled_failed]
    simp [CallRecord.settled, CallRecord.written, CallRecord.quarantined]
  contiguous := by
    intro record hrecord jobs hcall
    rcases List.mem_append.mp hrecord with hrecord | hrecord
    · obtain ⟨error, -, rfl⟩ := List.mem_map.mp hrecord
      cases hcall
      exact List.infix_rfl
    · cases List.mem_singleton.mp hrecord
      cases hcall
  retriedAlone := retriedAlone_quarantine hlength outcome

/-- The two halves of a batch that has failed. -/
theorem isolates_split {left right : List Job} {xs ys : List (CallRecord Job)}
    (hx : Isolates maxRetries left xs) (hy : Isolates maxRetries right ys) (errors : List Text) :
    Isolates maxRetries (left ++ right)
      (errors.map (CallRecord.failed (left ++ right)) ++ xs ++ ys) where
  settled := by
    rw [List.flatMap_append, List.flatMap_append, flatMap_settled_failed, hx.settled, hy.settled]
    rfl
  contiguous := by
    intro record hrecord jobs hcall
    rw [List.mem_append, List.mem_append] at hrecord
    rcases hrecord with (hrecord | hrecord) | hrecord
    · obtain ⟨error, -, rfl⟩ := List.mem_map.mp hrecord
      cases hcall
      exact List.infix_rfl
    · exact (hx.contiguous record hrecord jobs hcall).trans (List.prefix_append left right).isInfix
    · exact (hy.contiguous record hrecord jobs hcall).trans (List.suffix_append left right).isInfix
  retriedAlone :=
    retriedAlone_append (retriedAlone_append (retriedAlone_failed _ errors) hx.retriedAlone)
      hy.retriedAlone

theorem isolates_nil : Isolates maxRetries ([] : List Job) [] where
  settled := rfl
  contiguous := nofun
  retriedAlone := retriedAlone_failed [] []

/-- The isolation of a batch returns, whatever its calls throw. -/
theorem runFrom_writeBatchWithIsolation (outcomes : Nat → Option Text) (maxRetries : Nat)
    (batch : List Job) (calls : List (CallRecord Job)) :
    ∃ more, (writeBatchWithIsolation (recorded outcomes) maxRetries batch).runFrom calls =
      (.ok (), calls ++ more) ∧ Isolates maxRetries batch more := by
  induction hn : batch.length using Nat.strongRecOn generalizing batch calls with
  | ind n ih =>
    subst hn
    by_cases hlength : 2 ≤ batch.length
    · rw [writeBatchWithIsolation_of_two_le hlength, Recorder.runFrom_bind]
      obtain ⟨errors, ⟨-, hrun⟩ | hrun⟩ :=
        runFrom_tryWriteAttempts outcomes batch 1 [] calls
      · -- the halves are shorter, and go on with the calls made so far
        obtain ⟨xs, hleft, hx⟩ := ih _ (by rw [List.length_take]; omega)
          (batch.take (batch.length / 2)) (calls ++ errors.map (CallRecord.failed batch)) rfl
        obtain ⟨ys, hright, hy⟩ := ih _ (by rw [List.length_drop]; omega)
          (batch.drop (batch.length / 2)) (calls ++ errors.map (CallRecord.failed batch) ++ xs) rfl
        have hsplit := isolates_split hx hy errors
        rw [List.take_append_drop] at hsplit
        refine ⟨_, ?_, hsplit⟩
        rw [hrun]
        simpa [Recorder.runFrom_bind, hleft] using hright
      · refine ⟨_, ?_, isolates_written batch errors⟩
        rw [hrun]
        simp
    · match batch, hlength with
      | [], _ => exact ⟨[], by simp [writeBatchWithIsolation_nil], isolates_nil⟩
      | [poison], _ =>
        rw [writeBatchWithIsolation_singleton, Recorder.runFrom_bind]
        obtain ⟨errors, ⟨hlength, hrun⟩ | hrun⟩ :=
          runFrom_tryWriteAttempts outcomes [poison] (maxRetries + 1) [] calls
        · refine ⟨_, ?_, isolates_quarantined hlength
            (outcomes (calls ++ errors.map (CallRecord.failed [poison])).length)⟩
          rw [hrun]
          simp only [Bool.false_eq_true, if_false, recorded_writeQuarantineRecord,
            Recorder.runFrom_tryCatch, runFrom_perform, ← List.append_assoc]
          cases outcomes (calls ++ errors.map (CallRecord.failed [poison])).length with
          | none => rfl
          | some error => rfl
        · refine ⟨_, ?_, isolates_written [poison] errors⟩
          rw [hrun]
          simp
      | first :: second :: rest, hlength => simp at hlength

theorem count_written_quarantined [DecidableEq Job] (calls : List (CallRecord Job)) (job : Job) :
    (calls.flatMap CallRecord.written).count job + (calls.flatMap CallRecord.quarantined).count job =
      (calls.flatMap CallRecord.settled).count job := by
  induction calls with
  | nil => rfl
  | cons record calls ih =>
    simp only [List.flatMap_cons, List.count_append, CallRecord.settled]
    omega

theorem written_sublist (calls : List (CallRecord Job)) :
    (calls.flatMap CallRecord.written).Sublist (calls.flatMap CallRecord.settled) := by
  induction calls with
  | nil => exact .refl _
  | cons record calls ih =>
    simp only [List.flatMap_cons, CallRecord.settled]
    exact (List.sublist_append_left _ _).append ih

/-- Among lists without a common element, a value is in at most one. -/
theorem countP_mem {α : Type} [DecidableEq Job] {f : α → List Job} {xs : List α} (job : Job)
    (hnodup : (xs.flatMap f).Nodup) :
    xs.countP (fun x => job ∈ f x) = (xs.flatMap f).count job := by
  induction xs with
  | nil => rfl
  | cons x xs ih =>
    rw [List.flatMap_cons] at hnodup ⊢
    have hfirst := (List.nodup_append.mp hnodup).1
    rw [List.countP_cons, List.count_append, ih (List.nodup_append.mp hnodup).2.1, hfirst.count]
    simp [Nat.add_comm]

/-- The isolation of a batch returns whatever its calls throw.  Each job is in one successful call of
    `write_batch`, or is quarantined once after the permitted attempts have failed on it alone; the
    successful calls have the jobs in their order. -/
theorem writeBatchWithIsolation_isolates [DecidableEq Job] (outcomes : Nat → Option Text)
    (maxRetries : Nat) (batch : List Job) :
    ∃ calls, (writeBatchWithIsolation (recorded outcomes) maxRetries batch).runFrom [] =
        (.ok (), calls) ∧
      Isolates maxRetries batch calls ∧
      (calls.flatMap CallRecord.written).Sublist batch ∧
      (∀ job, (calls.flatMap CallRecord.written).count job +
        (calls.flatMap CallRecord.quarantined).count job = batch.count job) ∧
      (batch.Nodup → ∀ job ∈ batch, calls.countP (fun record => job ∈ record.settled) = 1) := by
  obtain ⟨calls, hrun, hisolates⟩ :=
    runFrom_writeBatchWithIsolation outcomes maxRetries batch []
  refine ⟨calls, hrun, hisolates, ?_, ?_, ?_⟩
  · rw [← hisolates.settled]
    exact written_sublist calls
  · intro job
    rw [count_written_quarantined, hisolates.settled]
  · intro hnodup job hjob
    have hsettled : (calls.flatMap CallRecord.settled).Nodup := by rwa [hisolates.settled]
    rw [countP_mem job hsettled, hisolates.settled, hnodup.count, if_pos hjob]

/-! ## The workers' isolation -/

/-- The calls of a worker: an operation on the shared state that answers `false` has thrown. -/
def workerCalls (C : Worker.Config) : BatchCalls (ExceptT Text WorkerM) MailJob where
  writeBatch jobs := do
    let written ← ExceptT.lift (Worker.writeBatch C jobs)
    if written then return else throw []
  writeQuarantineRecord job _ attempts := do
    let written : Bool ← ExceptT.lift (Worker.call
      (.writeFileAtomic (Worker.quarantinePath job) (Worker.quarantineRecord job attempts)))
    if written then return else throw []

/-- The attempts of a worker throw nothing and succeed as its own loop does. -/
theorem run_tryWriteAttempts (C : Worker.Config) {α : Type} (batch : List MailJob) (attempts : Nat)
    (lastError : Text) (k : Except Text Bool → WorkerM α) :
    ((tryWriteAttempts (workerCalls C) batch attempts lastError).run >>= fun result =>
        k (result.map Prod.fst)) =
      Worker.tryWriteBatch C attempts batch >>= fun written => k (.ok written) := by
  induction attempts generalizing lastError with
  | zero => rfl
  | succ attempts ih =>
    unfold tryWriteAttempts Worker.tryWriteBatch
    simp only [workerCalls, ExceptT.run_bind, ExceptT.run_tryCatch, ExceptT.run_lift, bind_assoc,
      map_eq_pure_bind, pure_bind]
    congr 1
    funext written
    cases written with
    | true => rfl
    | false => exact ih []

/-- What follows the attempts depends on whether one has succeeded, as a worker's quarantine record
    leaves out the text of the last exception. -/
theorem run_tryWriteAttempts_bind (C : Worker.Config) (batch : List MailJob) (attempts : Nat)
    (f : Bool × Text → ExceptT Text WorkerM Unit) (g : Bool → WorkerM (Except Text Unit))
    (hfg : ∀ result, (f result).run = g result.1) :
    (tryWriteAttempts (workerCalls C) batch attempts [] >>= f).run =
      Worker.tryWriteBatch C attempts batch >>= g := by
  have hrun := run_tryWriteAttempts C batch attempts [] fun
    | .ok written => g written
    | .error error => pure (.error error)
  rw [ExceptT.run_bind, ← hrun]
  congr 1
  funext result
  cases result with
  | ok result => exact hfg result
  | error error => rfl

/-- The isolation of a worker is the same text, run against the shared state. -/
theorem run_writeBatchWithIsolation (C : Worker.Config) (batch : List MailJob) :
    (writeBatchWithIsolation (workerCalls C) C.ingestMaxRetries batch).run =
      Worker.writeBatchWithIsolation C batch >>= fun _ => pure (.ok ()) := by
  fun_induction Worker.writeBatchWithIsolation C batch with
  | case1 =>
    rw [writeBatchWithIsolation_nil]
    rfl
  | case2 poison =>
    rw [writeBatchWithIsolation_singleton, bind_assoc]
    apply run_tryWriteAttempts_bind
    rintro ⟨written, lastError⟩
    cases written with
    | true => rfl
    | false =>
      show (tryCatch _ _ : ExceptT Text WorkerM Unit).run = _
      simp only [workerCalls, ExceptT.run_tryCatch, ExceptT.run_bind, ExceptT.run_lift,
        bind_assoc, map_eq_pure_bind, pure_bind, Bool.false_eq_true, if_false]
      congr 1
      funext recorded
      cases recorded with
      | true => rfl
      | false => rfl
  | case3 first second rest batch ihLeft ihRight =>
    rw [writeBatchWithIsolation_of_two_le (by simp), bind_assoc]
    apply run_tryWriteAttempts_bind
    rintro ⟨written, lastError⟩
    cases written with
    | true => rfl
    | false =>
      show (writeBatchWithIsolation _ _ _ >>= _ : ExceptT Text WorkerM Unit).run = _
      rw [ExceptT.run_bind, ihLeft]
      simp only [bind_assoc, pure_bind, Bool.false_eq_true, if_false]
      exact congrArg _ (funext fun _ => ihRight)

end Isolation
end RapidInbox

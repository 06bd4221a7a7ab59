import RapidInbox.Store.DeleteCoverage

/-!
# Deleting all mail of a mailbox

A call of `soft_delete_mailbox_deliveries` without delivery ids creates a job in its authorization
transaction, or attaches to the job of the mailbox that is not complete, and awaits the task that works
the job off.  A job that was created earlier does not cover the deliveries that came after it.
-/

namespace RapidInbox

open Table Transition

/-- A call after its authorization transaction; `activeIds` is a ghost: the deliveries that were active
    in the mailbox in the state of that transaction. -/
structure DeleteAllCall where
  mailboxId : Nat
  jobId : Text
  activeIds : List Text
  awaiting : Bool
  deriving DecidableEq

/-- Where `_run_bulk_delete_job` is: in its loop, or about to mark its job failed. -/
inductive DeleteTaskPhase where
  | running
  | failing
  deriving DecidableEq

/-- The service: the database, the tasks that are not done, the calls that wait, and the calls that
    returned in the last step with the count that they report. -/
structure DeleteService where
  db : Db
  closing : Bool
  tasks : List (Text × DeleteTaskPhase)
  calls : List DeleteAllCall
  returned : List (DeleteAllCall × Nat)
  deriving DecidableEq

inductive DeleteEvent where
  /-- a transaction of anybody else -/
  | store (op : StoreOp)
  /-- the authorization transaction of a new call -/
  | authorize (mailboxId : Nat) (jobId : Text) (deletedAt : Timestamp)
  /-- `_await_bulk_delete_job`, of the call at a position -/
  | await (call : Nat)
  | batch (jobId : Text) (now : Timestamp)
  /-- a batch raises and is rolled back -/
  | batchError (jobId : Text)
  /-- `_mark_bulk_delete_job_failed`, which may fail itself -/
  | markFailed (jobId : Text) (persisted : Bool)
  /-- the task finds the service closing -/
  | pause (jobId : Text)
  | cancelTask (jobId : Text)
  | cancelCall (call : Nat)
  | close
  /-- `resume_incomplete_bulk_delete_jobs`, for one job -/
  | resume (jobId : Text)
  /-- the process stops, and starts again -/
  | crash

/-- The ids of the deliveries that are active in a mailbox. -/
def Db.activeIds (db : Db) (mailboxId : Nat) : List Text :=
  (db.deliveries.filter fun d => d.mailboxId = mailboxId && d.status = .active).map DeliveryRow.id

/-- What a batch returns, as it stands in the row of the job: whether it is complete, and how many
    deliveries it has deleted. -/
def Db.bulkDeleteReport (db : Db) (jobId : Text) : Bool × Nat :=
  match db.bulkDeleteJob? jobId with
  | some job => (!job.incomplete, job.deletedCount)
  | none => (false, 0)

namespace DeleteService

def init : DeleteService := ⟨.empty, false, [], [], []⟩

def isAwaiting (jobId : Text) (call : DeleteAllCall) : Bool := call.awaiting && call.jobId = jobId

/-- The task of a job is done without a result: the calls that await it raise. -/
def abandon (s : DeleteService) (jobId : Text) : DeleteService :=
  { s with
    tasks := s.tasks.filter (·.1 ≠ jobId)
    calls := s.calls.filter fun call => !isAwaiting jobId call
    returned := [] }

/-- The task of a job is done: the calls that await it return. -/
def finish (s : DeleteService) (jobId : Text) (deleted : Nat) : DeleteService :=
  { s.abandon jobId with returned := (s.calls.filter (isAwaiting jobId)).map fun call => (call, deleted) }

def hasTask (s : DeleteService) (jobId : Text) : Bool := s.tasks.any (·.1 = jobId)

/-- The task of a job, started if there is none. -/
def withTask (s : DeleteService) (jobId : Text) : List (Text × DeleteTaskPhase) :=
  if s.hasTask jobId then s.tasks else s.tasks ++ [(jobId, .running)]

/-- One event, where it can happen. -/
def step (E : StoreEnv) (s : DeleteService) : DeleteEvent → Option DeleteService
  | .store op => some { s with db := s.db.exec E op, returned := [] }
  | .authorize mailboxId jobId deletedAt =>
    match s.db.createOrResumeBulkDeleteJob jobId mailboxId deletedAt with
    | .error _ => none
    | .ok (jobId, db) =>
      some
        { s with
          db := db
          calls := s.calls ++ [⟨mailboxId, jobId, s.db.activeIds mailboxId, false⟩]
          returned := [] }
  | .await n =>
    match s.calls[n]? with
    | none => none
    | some call =>
      if call.awaiting then none
      else if s.closing then some { s with calls := s.calls.eraseIdx n, returned := [] }
      else
        some
          { s with
            tasks := s.withTask call.jobId
            calls := s.calls.set n { call with awaiting := true }
            returned := [] }
  | .batch jobId now =>
    if (jobId, .running) ∈ s.tasks then
      match s.db.processBulkDeleteJobBatch jobId Db.mailboxBulkDeleteBatchSize now with
      | .error _ => none
      | .ok db =>
        let report := db.bulkDeleteReport jobId
        if report.1 then some ({ s with db := db }.finish jobId report.2)
        else some { s with db := db, returned := [] }
    else none
  | .batchError jobId =>
    if (jobId, .running) ∈ s.tasks then
      some { s with tasks := s.tasks.filter (·.1 ≠ jobId) ++ [(jobId, .failing)], returned := [] }
    else none
  | .markFailed jobId persisted =>
    if (jobId, .failing) ∈ s.tasks then
      some { s.abandon jobId with
        db := if persisted then s.db.markBulkDeleteJobFailed jobId else s.db }
    else none
  | .pause jobId => if s.closing && s.hasTask jobId then some (s.abandon jobId) else none
  | .cancelTask jobId => if s.hasTask jobId then some (s.abandon jobId) else none
  | .cancelCall n => some { s with calls := s.calls.eraseIdx n, returned := [] }
  | .close => some { s with closing := true, returned := [] }
  | .resume jobId =>
    if s.closing then none else some { s with tasks := s.withTask jobId, returned := [] }
  | .crash => some ⟨s.db, false, [], [], []⟩

/-- What a transaction of somebody else leaves alone while a call waits: it gives no delivery an id that
    a delivery of the call had, and makes no ownership merge of the mailbox of the call. -/
def Spares (E : StoreEnv) (s : DeleteService) : DeleteEvent → Prop
  | .store op =>
    ∀ call ∈ s.calls, (∀ id, op.InsertsDelivery id → id ∉ call.activeIds) ∧
      s.db.MergesAvoid (s.db.exec E op) call.mailboxId
  | _ => True

/-- A call that attaches to a job finds all active deliveries of the mailbox of the generation of that
    job. -/
def AttachesCovered (s : DeleteService) : DeleteEvent → Prop
  | .authorize mailboxId _ _ =>
    ∀ j ∈ s.db.bulkDeleteJobs, j.mailboxId = mailboxId → j.incomplete →
      ∀ d ∈ s.db.deliveries, d.mailboxId = mailboxId → d.status = .active →
        d.mailboxGeneration = j.targetGeneration
  | _ => True

/-- The deliveries of a waiting call are covered by its job, and those of a call that returned are not
    active. -/
structure Sound (s : DeleteService) : Prop where
  consistent : s.db.Consistent
  accounted : s.db.Accounted
  covered : ∀ call ∈ s.calls, s.db.ScopeCovered call.jobId (· ∈ call.activeIds)
  ofMailbox : ∀ call ∈ s.calls, s.db.OfMailbox call.mailboxId (· ∈ call.activeIds)
  returned : ∀ result ∈ s.returned, ∀ d ∈ s.db.deliveries, d.id ∈ result.1.activeIds →
    d.status ≠ .active

variable {E : StoreEnv} {s s' : DeleteService} {db' : Db} {jobId : Text} {mailboxId : Nat}

theorem init_sound : init.Sound := ⟨Db.empty_consistent, Db.empty_accounted, nofun, nofun, nofun⟩

/-- Calls go away or start to wait, and none returns. -/
theorem Sound.of_calls (h : s.Sound) (hdb : s'.db = s.db) (hreturned : s'.returned = [])
    (hcalls : ∀ call ∈ s'.calls, ∃ old ∈ s.calls, old.mailboxId = call.mailboxId ∧
      old.jobId = call.jobId ∧ old.activeIds = call.activeIds) : s'.Sound where
  consistent := hdb ▸ h.consistent
  accounted := hdb ▸ h.accounted
  covered call hcall := by
    obtain ⟨old, hold, -, hjob, hids⟩ := hcalls call hcall
    rw [hdb, ← hjob, ← hids]
    exact h.covered old hold
  ofMailbox call hcall := by
    obtain ⟨old, hold, hbox, -, hids⟩ := hcalls call hcall
    rw [hdb, ← hbox, ← hids]
    exact h.ofMailbox old hold
  returned result hresult := by
    rw [hreturned] at hresult
    cases hresult

theorem Sound.filter_calls (h : s.Sound) (hdb : s'.db = s.db) (hreturned : s'.returned = [])
    (hcalls : ∀ call ∈ s'.calls, call ∈ s.calls) : s'.Sound :=
  h.of_calls hdb hreturned fun call hcall => ⟨call, hcalls call hcall, rfl, rfl, rfl⟩

/-- A transaction that spares the waiting calls. -/
theorem Sound.track (h : s.Sound) {rules : EditRules} (hedits : Edits rules s.db db')
    (hspare : ∀ call ∈ s.calls,
      (∀ id messageId, rules.newMail (.delivery id messageId) → id ∉ call.activeIds) ∧
        s.db.MergesAvoid db' call.mailboxId) : { s with db := db', returned := [] }.Sound := by
  have htracked (call : DeleteAllCall) (hcall : call ∈ s.calls) :=
    Edits.tracked h.consistent (hspare call hcall).1 hedits (hspare call hcall).2
      (h.ofMailbox call hcall) (h.covered call hcall)
  exact
    { consistent := Edits.consistent h.consistent hedits
      accounted := Edits.accounted h.consistent hedits h.accounted
      covered := fun call hcall => (htracked call hcall).2
      ofMailbox := fun call hcall => (htracked call hcall).1
      returned := nofun }

/-- Rules under which an edit inserts no mail. -/
theorem Sound.track_jobs (h : s.Sound) (hedit : Edit (idRules (fun _ => True) fun _ => False) s.db db')
    (hmerges : db'.merges = s.db.merges) : { s with db := db', returned := [] }.Sound :=
  h.track (.single hedit) fun _ _ => ⟨fun _ _ hnew => hnew.elim, .of_eq hmerges⟩

theorem mem_activeIds {db : Db} (hdb : db.Consistent) {d : DeliveryRow} (hd : d ∈ db.deliveries) :
    d.id ∈ db.activeIds mailboxId ↔ d.mailboxId = mailboxId ∧ d.status = .active := by
  constructor
  · intro h
    obtain ⟨e, he, hid⟩ := List.mem_map.mp h
    obtain ⟨he, hactive⟩ := List.mem_filter.mp he
    rw [hdb.delivery_ids.eq_of_mem he hd hid] at hactive
    simpa using hactive
  · intro h
    exact List.mem_map.mpr ⟨d, List.mem_filter.mpr ⟨hd, by simpa using h⟩, rfl⟩

/-- A new call is covered by the job that it creates or attaches to. -/
theorem covered_of_authorize {db : Db} (hdb : db.Consistent) (h : db.Accounted) {newId : Text}
    {deletedAt : Timestamp}
    (hcreate : db.createOrResumeBulkDeleteJob newId mailboxId deletedAt = .ok (jobId, db'))
    (hattach : ∀ j ∈ db.bulkDeleteJobs, j.mailboxId = mailboxId → j.incomplete →
      ∀ d ∈ db.deliveries, d.mailboxId = mailboxId → d.status = .active →
        d.mailboxGeneration = j.targetGeneration) :
    db'.ScopeCovered jobId (· ∈ db.activeIds mailboxId) ∧
      db'.OfMailbox mailboxId (· ∈ db.activeIds mailboxId) ∧ db'.merges = db.merges := by
  have hof : db.OfMailbox mailboxId (· ∈ db.activeIds mailboxId) :=
    fun d hd hscope => ((mem_activeIds hdb hd).mp hscope).1
  obtain ⟨mailbox, hmailbox, hid, ⟨job, hjob, hbox, hinc, rfl, rfl⟩ | ⟨hidle, -, rfl, rfl⟩⟩ :=
    Db.createOrResumeBulkDeleteJob_ok hcreate
  · refine ⟨.inl ⟨job, hjob, rfl, hinc, ?_⟩, hof, rfl⟩
    intro d hd hscope hactive
    have hin := hof d hd hscope
    exact h.window job hjob hinc d hd
      ⟨hin.trans hbox.symm, hactive, hattach job hjob hbox hinc d hd hin hactive⟩
  · refine ⟨.inl ⟨_, List.mem_append_right _ (List.mem_singleton.mpr rfl), rfl, rfl, ?_⟩, hof, rfl⟩
    intro d hd hscope hactive
    have hin := hof d hd hscope
    rcases h.generation d hd hactive mailbox hmailbox (hid.trans hin.symm) with hgen | hother
    · exact Db.newBulkDeleteJob_window hdb hd ⟨hin.trans hid.symm, hactive, hgen⟩
    · obtain ⟨j, hj, hinc, hscope'⟩ := hother
      rw [hidle j hj (hscope'.mailbox.symm.trans hin)] at hinc
      cases hinc

/-- A call with a job that a batch reports complete has no active delivery left. -/
theorem not_active_of_report {db : Db} (hdb : db.Consistent) {scope : Text → Prop}
    (hreport : (db.bulkDeleteReport jobId).1 = true) (h : db.ScopeCovered jobId scope) :
    ∀ d ∈ db.deliveries, scope d.id → d.status ≠ .active := by
  rcases h with ⟨j, hj, hid, hinc, -⟩ | hnone
  · unfold Db.bulkDeleteReport Db.bulkDeleteJob? at hreport
    rw [hdb.job_ids.find?_eq_some hj hid] at hreport
    simp [hinc] at hreport
  · exact hnone

theorem processBulkDeleteJobBatch_merges {db : Db} {batchSize : Nat} {now : Timestamp}
    (h : db.processBulkDeleteJobBatch jobId batchSize now = .ok db') : db'.merges = db.merges := by
  obtain ⟨job, -, -, -, ⟨-, rfl⟩ | ⟨-, rfl⟩⟩ := Db.processBulkDeleteJobBatch_ok h
  · rfl
  · unfold Db.advanceBulkDeleteJob
    dsimp only
    split
    · rfl
    · rfl

theorem Sound.batch (h : s.Sound) {now : Timestamp} (hstep : s.step E (.batch jobId now) = some s') :
    s'.Sound := by
  unfold DeleteService.step at hstep
  dsimp only at hstep
  split at hstep
  · split at hstep
    · cases hstep
    · rename_i db' hprocess
      have hsound := h.track_jobs (.processJob hprocess) (processBulkDeleteJobBatch_merges hprocess)
      split at hstep
      · rename_i hreport
        cases hstep
        exact
          { consistent := hsound.consistent
            accounted := hsound.accounted
            covered := fun call hcall => hsound.covered call (List.mem_of_mem_filter hcall)
            ofMailbox := fun call hcall => hsound.ofMailbox call (List.mem_of_mem_filter hcall)
            returned := by
              intro result hresult
              obtain ⟨call, hcall, rfl⟩ := List.mem_map.mp hresult
              obtain ⟨hcall, hawaits⟩ := List.mem_filter.mp hcall
              have hjob : call.jobId = jobId := by
                simp only [isAwaiting, Bool.and_eq_true, decide_eq_true_iff] at hawaits
                exact hawaits.2
              have hcovered := hsound.covered call hcall
              rw [hjob] at hcovered
              exact not_active_of_report hsound.consistent hreport hcovered }
      · cases hstep
        exact hsound
  · cases hstep

theorem Sound.await (h : s.Sound) {n : Nat} (hstep : s.step E (.await n) = some s') : s'.Sound := by
  unfold DeleteService.step at hstep
  dsimp only at hstep
  split at hstep
  · cases hstep
  · rename_i call hcall
    split at hstep
    · cases hstep
    · split at hstep
      · cases hstep
        exact h.filter_calls rfl rfl fun _ hmem => List.mem_of_mem_eraseIdx hmem
      · cases hstep
        refine h.of_calls rfl rfl ?_
        intro other hother
        rcases List.mem_or_eq_of_mem_set hother with hother | rfl
        · exact ⟨other, hother, rfl, rfl, rfl⟩
        · exact ⟨call, List.mem_of_getElem? hcall, rfl, rfl, rfl⟩

theorem Sound.authorize (h : s.Sound) {newId : Text} {deletedAt : Timestamp}
    (hattach : AttachesCovered s (.authorize mailboxId newId deletedAt))
    (hstep : s.step E (.authorize mailboxId newId deletedAt) = some s') : s'.Sound := by
  unfold DeleteService.step at hstep
  dsimp only at hstep
  split at hstep
  · cases hstep
  · rename_i jobId db' hcreate
    cases hstep
    obtain ⟨hcovered, hof, hmerges⟩ := covered_of_authorize h.consistent h.accounted hcreate hattach
    have hsound := h.track_jobs (.createJob trivial hcreate) hmerges
    exact
      { consistent := hsound.consistent
        accounted := hsound.accounted
        covered := by
          intro call hcall
          rcases List.mem_append.mp hcall with hcall | hcall
          · exact hsound.covered call hcall
          · rw [List.mem_singleton.mp hcall]
            exact hcovered
        ofMailbox := by
          intro call hcall
          rcases List.mem_append.mp hcall with hcall | hcall
          · exact hsound.ofMailbox call hcall
          · rw [List.mem_singleton.mp hcall]
            exact hof
        returned := nofun }

theorem Sound.abandon (h : s.Sound) : (s.abandon jobId).Sound :=
  h.filter_calls rfl rfl fun _ hcall => List.mem_of_mem_filter hcall

theorem Sound.step (h : s.Sound) {e : DeleteEvent} (hspare : Spares E s e)
    (hattach : AttachesCovered s e) (hstep : s.step E e = some s') : s'.Sound := by
  cases e with
  | store op =>
    cases hstep
    refine h.track (Db.exec_edits h.consistent op) fun call hcall => ?_
    obtain ⟨hfresh, havoid⟩ := hspare call hcall
    exact ⟨fun id messageId hnew => hfresh id hnew.insertsDelivery, havoid⟩
  | authorize mailboxId newId deletedAt => exact h.authorize hattach hstep
  | await n => exact h.await hstep
  | batch jobId now => exact h.batch hstep
  | batchError jobId =>
    unfold DeleteService.step at hstep
    dsimp only at hstep
    split at hstep
    · cases hstep
      exact h.filter_calls rfl rfl fun _ hcall => hcall
    · cases hstep
  | markFailed jobId persisted =>
    unfold DeleteService.step at hstep
    dsimp only at hstep
    split at hstep
    · cases hstep
      cases persisted with
      | false => exact h.abandon
      | true =>
        have hsound : DeleteService.Sound
            { s with db := s.db.markBulkDeleteJobFailed jobId, returned := [] } :=
          h.track_jobs .failJob rfl
        exact hsound.filter_calls rfl rfl fun _ hcall => List.mem_of_mem_filter hcall
    · cases hstep
  | pause jobId =>
    unfold DeleteService.step at hstep
    dsimp only at hstep
    split at hstep
    · cases hstep
      exact h.abandon
    · cases hstep
  | cancelTask jobId =>
    unfold DeleteService.step at hstep
    dsimp only at hstep
    split at hstep
    · cases hstep
      exact h.abandon
    · cases hstep
  | cancelCall n =>
    cases hstep
    exact h.filter_calls rfl rfl fun _ hcall => List.mem_of_mem_eraseIdx hcall
  | close =>
    cases hstep
    exact h.filter_calls rfl rfl fun _ hcall => hcall
  | resume jobId =>
    unfold DeleteService.step at hstep
    dsimp only at hstep
    split at hstep
    · cases hstep
    · cases hstep
      exact h.filter_calls rfl rfl fun _ hcall => hcall
  | crash =>
    cases hstep
    exact h.filter_calls rfl rfl nofun

/-- In every run whose transactions spare the waiting calls, and whose calls that attach to a job find
    only deliveries of its generation: when a call returns, no delivery is active that was active in the
    mailbox at its authorization. -/
theorem delete_all_covers {E : StoreEnv} {events : List DeleteEvent} {s : DeleteService}
    (halong : Along (DeleteService.step E) (fun s e => Spares E s e ∧ AttachesCovered s e) init events)
    (hrun : run (DeleteService.step E) init events = some s) :
    ∀ result ∈ s.returned, ∀ d ∈ s.db.deliveries, d.id ∈ result.1.activeIds → d.status ≠ .active := by
  have hstep (s : DeleteService) (e : DeleteEvent) (s' : DeleteService) (hs : s.Sound)
      (hcond : Spares E s e ∧ AttachesCovered s e) (h : s.step E e = some s') : s'.Sound :=
    hs.step hcond.1 hcond.2 h
  exact (run_invariant_along hstep init_sound halong hrun).returned

/-! ## Two runs -/

/-- A condition on the steps of the runs below that can be evaluated. -/
def SparesCommits (E : StoreEnv) (s : DeleteService) : DeleteEvent → Prop
  | .store (.commit jobs) =>
    ∀ call ∈ s.calls, (∀ job ∈ jobs, ∀ r ∈ job.1.recipients, r.deliveryId ∉ call.activeIds) ∧
      s.db.MergesAvoid (s.db.exec E (.commit jobs)) call.mailboxId
  | .store _ => s.calls = []
  | _ => True

theorem SparesCommits.spares {e : DeleteEvent} (h : SparesCommits E s e) : Spares E s e := by
  cases e with
  | store op =>
    intro call hcall
    cases op with
    | commit jobs =>
      obtain ⟨hfresh, havoid⟩ := h call hcall
      refine ⟨?_, havoid⟩
      rintro id ⟨job, hjob, r, hr, rfl⟩
      exact hfresh job hjob r hr
    | _ =>
      have hnone : s.calls = [] := h
      rw [hnone] at hcall
      cases hcall
  | _ => trivial

instance (E : StoreEnv) (s : DeleteService) (e : DeleteEvent) : Decidable (SparesCommits E s e) := by
  unfold SparesCommits
  split <;> infer_instance

instance (s : DeleteService) (e : DeleteEvent) : Decidable (AttachesCovered s e) := by
  unfold AttachesCovered
  split <;> infer_instance

/-- A mailbox with one message. -/
def firstMessage : List DeleteEvent :=
  [.store (.syncCatchAll true false false none 1000),
   .store (.commit [sampleJob "m1" 10 [sampleRecipient "d1" (sampleMatch 1 "*" "u" "example.com")]])]

def secondMessage : DeleteEvent :=
  .store (.commit [sampleJob "m2" 30 [sampleRecipient "d2" (sampleMatch 1 "*" "u" "example.com")]])

/-- The second message arrives while the call waits. -/
def calledOnce : List DeleteEvent :=
  firstMessage ++ [.authorize 1 "j1".toList 20, secondMessage, .await 0, .batch "j1".toList 40]

/-- The job of the first call has failed; the second message arrives, and another call attaches to the
    job. -/
def calledTwice : List DeleteEvent :=
  firstMessage ++
    [.authorize 1 "j1".toList 20, .await 0, .batchError "j1".toList, .markFailed "j1".toList true,
     secondMessage, .authorize 1 "j2".toList 40, .await 0, .batch "j1".toList 50]

/-- The call that is alone returns, and the first message is deleted. -/
theorem delete_all_covers_first_message :
    ∃ s, run (DeleteService.step .ascii) init calledOnce = some s ∧
      (∃ result ∈ s.returned, "d1".toList ∈ result.1.activeIds) ∧
      ∀ result ∈ s.returned, ∀ d ∈ s.db.deliveries, d.id ∈ result.1.activeIds →
        d.status ≠ .active := by
  have hcalled : ((run (DeleteService.step .ascii) init calledOnce).any fun s =>
      decide (∃ result ∈ s.returned, "d1".toList ∈ result.1.activeIds)) = true := by decide +kernel
  have halong : Along (DeleteService.step .ascii)
      (fun s e => SparesCommits .ascii s e ∧ AttachesCovered s e) init calledOnce := by decide +kernel
  obtain ⟨s, hrun, hresult⟩ := (Option.any_eq_true _ _).mp hcalled
  exact ⟨s, hrun, of_decide_eq_true hresult,
    delete_all_covers (halong.mono fun _ _ h => ⟨h.1.spares, h.2⟩) hrun⟩

/-- The second call returns, and a message that was in the mailbox when it was authorized is still
    there. -/
theorem delete_all_misses_second_message :
    Along (DeleteService.step .ascii) (Spares .ascii) init calledTwice ∧
    ∃ s, run (DeleteService.step .ascii) init calledTwice = some s ∧
      ∃ result ∈ s.returned, ∃ d ∈ s.db.deliveries, d.id ∈ result.1.activeIds ∧
        d.status = .active := by
  have hcalled : ((run (DeleteService.step .ascii) init calledTwice).any fun s =>
      decide (∃ result ∈ s.returned, ∃ d ∈ s.db.deliveries, d.id ∈ result.1.activeIds ∧
        d.status = .active)) = true := by decide +kernel
  have halong : Along (DeleteService.step .ascii) (SparesCommits .ascii) init calledTwice := by
    decide +kernel
  obtain ⟨s, hrun, hresult⟩ := (Option.any_eq_true _ _).mp hcalled
  exact ⟨halong.mono fun _ _ h => h.spares, s, hrun, of_decide_eq_true hresult⟩

end DeleteService
end RapidInbox

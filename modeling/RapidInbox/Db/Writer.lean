import RapidInbox.Db.Admission
import RapidInbox.Lib.Run

/-!
# The database writer actor

`DatabaseWriter` serialises the SQLite mutations on one worker thread.  The callers run on any number
of event loops; what they share with the worker is the state under the lock, the bounded queue and the
futures.  A step of the model is one critical section or one operation on the queue or a future, so a
run is an interleaving of the callers, the callbacks, the closers and the worker.

A thread that leaves a critical section with grants to schedule or with `enqueue_stop` set does so
later: `grants` and `stopDue` hold what is still to be done, and any order of it is a run.
-/

namespace RapidInbox

/-- `DatabaseWriter._state` -/
inductive WriterState where
  | opened | closing | closed
  deriving DecidableEq

/-- The constructor's arguments, as it checks them. -/
structure WriterConfig where
  queueCapacity : Nat
  maxWaiters : Nat
  capacity_pos : 1 ≤ queueCapacity
  waiters_pos : 1 ≤ maxWaiters

/-- An item of the queue: the request of a call, or `_STOP`. -/
inductive QueueItem where
  | request (c : Nat)
  | stop
  deriving DecidableEq

def QueueItem.request? : QueueItem → Option Nat
  | .request c => some c
  | .stop => none

/-- Where the worker thread stands. -/
inductive WriterPhase where
  /-- `_thread` is `None`. -/
  | absent
  /-- At `_queue.get()`. -/
  | idle
  /-- It holds a request and has no connection. -/
  | opening (c : Nat)
  /-- At the beginning of `_run_request`. -/
  | starting (c : Nat)
  /-- Inside `request.operation`. -/
  | running (c : Nat)
  /-- The operation or its commit raised. -/
  | failed (c : Nat)
  /-- Before `_release_capacity`; afterwards the exception goes on if `raising`. -/
  | releasing (c : Nat) (raising : Bool)
  /-- In the `except` branch of `_worker_main`, with its `active_request`. -/
  | fatal (active : Option Nat)
  /-- After `_begin_fatal_shutdown`. -/
  | failingActive (active : Option Nat)
  /-- In `_fail_owned_requests`. -/
  | failing
  /-- Before `_release_capacity` for a request that the fatal branch has failed. -/
  | releasingFailed
  /-- In the `finally` branch of `_worker_main`. -/
  | finishing
  | exited
  deriving DecidableEq

/-- The actor. -/
structure DatabaseWriter where
  adm : Admission := {}
  state : WriterState := .opened
  stopEnqueued : Bool := false
  /-- `_closed` is done. -/
  closed : Bool := false
  worker : WriterPhase := .absent
  /-- The worker has a connection. -/
  connected : Bool := false
  queue : List QueueItem := []
  /-- Threads that have left the lock with `enqueue_stop`. -/
  stopDue : Nat := 0
  /-- The requests placed in the queue, in order. -/
  enqueued : List Nat := []
  /-- The requests whose future has been set, once for each time it was. -/
  resolved : List Nat := []
  /-- The operations started. -/
  ran : List Nat := []
  /-- How often `_STOP` was placed in the queue. -/
  stopsPut : Nat := 0
  /-- Some `put_nowait` has raised `Full`. -/
  fullRaised : Bool := false
  deriving DecidableEq

namespace DatabaseWriter

variable (cfg : WriterConfig)

/-! ## Critical sections -/

/-- `_prepare_stop_locked` -/
def prepareStop (s : DatabaseWriter) : DatabaseWriter :=
  if s.state = .closing ∧ s.adm.outstanding = 0 ∧ s.stopEnqueued = false then
    { s with stopEnqueued := true, stopDue := s.stopDue + 1 }
  else s

/-- `_grant_waiters_locked` and `_prepare_stop_locked`, as every release of a slot ends. -/
def regrant (s : DatabaseWriter) : DatabaseWriter :=
  prepareStop { s with adm := s.adm.grantWaiters cfg.queueCapacity (s.state = .opened) }

/-- `_release_capacity`, which raises when there is nothing to release. -/
def releaseCapacity (s : DatabaseWriter) : Option DatabaseWriter :=
  if s.adm.outstanding ≤ 0 then none
  else some (regrant cfg { s with adm := { s.adm with outstanding := s.adm.outstanding - 1 } })

/-- A call of `_submit` up to its first suspension.  The first one starts the worker thread, and a
thread that cannot start closes the actor. -/
def submit (s : DatabaseWriter) (starts : Bool) : DatabaseWriter :=
  if s.state ≠ .opened then s
  else if s.worker = .absent ∧ starts = false then { s with state := .closed, closed := true }
  else
    { s with worker := if s.worker = .absent then .idle else s.worker,
             adm := s.adm.acquire cfg.queueCapacity cfg.maxWaiters }

/-- `task.cancel()` of a caller at a suspension point: it cancels the waiter's future, or marks the
task when the future is done.  The future of a placed request is shielded. -/
def cancel (s : DatabaseWriter) (c : Nat) : Option DatabaseWriter :=
  match s.adm.calls[c]? with
  | some ⟨.awaiting _, waiter, .pending⟩ =>
    some { s with adm := s.adm.setCall c ⟨.awaiting false, waiter, .cancelled⟩ }
  | some ⟨.awaiting _, waiter, future⟩ =>
    some { s with adm := s.adm.setCall c ⟨.awaiting true, waiter, future⟩ }
  | some ⟨.dispatched, waiter, future⟩ =>
    some { s with adm := s.adm.setCall c ⟨.left, waiter, future⟩ }
  | _ => none

/-- `_cancel_admission`, for a caller that raises. -/
def unwind (s : DatabaseWriter) (c : Nat) : Option DatabaseWriter :=
  (s.adm.move c .unwinding .left).map fun adm => regrant cfg { s with adm := adm.revoke c }

/-- The critical section of `_submit`: place the request, or give the slot back because the actor has
stopped admitting. -/
def dispatch (s : DatabaseWriter) (c : Nat) : Option DatabaseWriter :=
  if s.state ≠ .opened then
    if s.adm.outstanding ≤ 0 then
      (s.adm.move c .admitted .dropping).map fun adm => { s with adm := adm }
    else
      (s.adm.move c .admitted .left).map fun adm =>
        prepareStop { s with adm := { adm with outstanding := adm.outstanding - 1 } }
  else if s.queue.length < cfg.queueCapacity then
    (s.adm.move c .admitted .dispatched).map fun adm =>
      { s with adm := adm, queue := s.queue ++ [.request c], enqueued := s.enqueued ++ [c] }
  else
    (s.adm.move c .admitted .dropping).map fun adm => { s with adm := adm, fullRaised := true }

/-- The defensive `except` branch of `_submit`. -/
def drop (s : DatabaseWriter) (c : Nat) : Option DatabaseWriter :=
  (s.adm.move c .dropping .left).map fun adm =>
    (releaseCapacity cfg { s with adm := adm }).getD { s with adm := adm }

/-- `_queue.put_nowait(_STOP)` of a thread with `enqueue_stop` set. -/
def putStop (s : DatabaseWriter) : Option DatabaseWriter :=
  if s.stopDue = 0 then none
  else if s.queue.length < cfg.queueCapacity then
    some { s with queue := s.queue ++ [.stop], stopDue := s.stopDue - 1, stopsPut := s.stopsPut + 1 }
  else
    some { s with stopDue := s.stopDue - 1, fullRaised := true }

/-- `close` up to its `await`. -/
def close (s : DatabaseWriter) : DatabaseWriter :=
  if s.state ≠ .opened then s
  else
    let s := { s with state := .closing, adm := s.adm.rejectWaiters }
    if s.adm.outstanding = 0 ∧ s.stopEnqueued = false then
      if s.worker = .absent then { s with state := .closed, closed := true }
      else { s with stopEnqueued := true, stopDue := s.stopDue + 1 }
    else s

/-! ## The worker -/

/-- How `connection.rollback()` ends after a failed operation: with an `sqlite3.Error` the connection
is closed and forgotten; any other exception, of the rollback or of that close, leaves
`_run_request`. -/
inductive Rollback where
  | done | sqliteError | otherError
  deriving DecidableEq

/-- A step of the worker thread with what its environment answers. -/
inductive WorkerAction where
  | take
  /-- `_queue.get()` raises. -/
  | takeFails
  | openConnection (opens : Bool)
  | applyPragmas (applies : Bool)
  | runOperation (succeeds : Bool)
  | rollback (outcome : Rollback)
  | release
  | beginFatalShutdown
  | failActive
  | failOwned
  /-- The `finally` branch; `connection.close()` may raise something other than an `sqlite3.Error`. -/
  | finish (closes : Bool)
  deriving DecidableEq

/-- Set the future of request `c` and go to `next`. -/
def settle (s : DatabaseWriter) (c : Nat) (next : WriterPhase) : DatabaseWriter :=
  { s with resolved := s.resolved ++ [c], worker := next }

/-- `_begin_fatal_shutdown` -/
def beginFatalShutdown (s : DatabaseWriter) : DatabaseWriter :=
  { s with state := if s.state = .closed then .closed else .closing,
           stopEnqueued := true,
           adm := s.adm.rejectWaiters }

/-- One step of `_worker_main`. -/
def workerStep (s : DatabaseWriter) (action : WorkerAction) : Option DatabaseWriter :=
  match s.worker, action with
  | .idle, .take =>
    match s.queue with
    | [] => none
    | .stop :: rest => some { s with queue := rest, worker := .finishing }
    | .request c :: rest =>
      some { s with queue := rest, worker := if s.connected then .starting c else .opening c }
  | .idle, .takeFails => some { s with worker := .fatal none }
  | .opening c, .openConnection opens =>
    some (if opens then { s with connected := true, worker := .starting c }
      else s.settle c (.releasing c false))
  | .starting c, .applyPragmas applies =>
    some (if applies then { s with ran := s.ran ++ [c], worker := .running c }
      else { s with worker := .failed c })
  | .running c, .runOperation succeeds =>
    some (if succeeds then s.settle c (.releasing c false) else { s with worker := .failed c })
  | .failed c, .rollback outcome =>
    some (match outcome with
      | .done => s.settle c (.releasing c false)
      | .sqliteError => { s with connected := false }.settle c (.releasing c false)
      -- the `finally` of `_run_request` releases the slot, the future stays unset
      | .otherError => { s with worker := .releasing c true })
  | .releasing c raising, .release =>
    some (match releaseCapacity cfg s with
      | some s' => { s' with worker := if raising then .fatal (some c) else .idle }
      | none => { s with worker := .fatal (some c) })
  | .fatal active, .beginFatalShutdown =>
    some { s.beginFatalShutdown with worker := .failingActive active }
  | .failingActive active, .failActive =>
    some (match active with
      | some c => if c ∈ s.resolved then { s with worker := .failing } else s.settle c .releasingFailed
      | none => { s with worker := .failing })
  | .failing, .failOwned =>
    match s.queue with
    | [] => some { s with worker := .finishing }
    | .stop :: rest => some { s with queue := rest }
    | .request c :: rest => some ({ s with queue := rest }.settle c .releasingFailed)
  | .releasingFailed, .release =>
    some (match releaseCapacity cfg s with
      | some s' => { s' with worker := .failing }
      -- the underflow leaves the `except` branch
      | none => { s with worker := .finishing })
  | .finishing, .finish closes =>
    some (if closes || !s.connected then
        { s with connected := false, state := .closed, closed := true, worker := .exited }
      else { s with worker := .exited })
  | _, _ => none

/-! ## Runs -/

/-- What can happen next. -/
inductive Action where
  | submit (starts : Bool)
  | scheduleGrant (c : Nat)
  /-- The loop of a granted waiter is closed: `call_soon_threadsafe` raises `RuntimeError`. -/
  | failGrant (c : Nat)
  | deliverGrant (c : Nat)
  | scheduleRejection (c : Nat) (loopOpen : Bool)
  | deliverRejection (c : Nat)
  | cancel (c : Nat)
  | resume (c : Nat)
  | unwind (c : Nat)
  | dispatch (c : Nat)
  | drop (c : Nat)
  | putStop
  | close
  | worker (action : WorkerAction)
  deriving DecidableEq

/-- One step of the actor and its callers. -/
def step (s : DatabaseWriter) : Action → Option DatabaseWriter
  | .submit starts => some (s.submit cfg starts)
  | .scheduleGrant c => (s.adm.scheduleGrant c).map fun adm => { s with adm := adm }
  | .failGrant c => (s.adm.failGrant c).map fun adm => regrant cfg { s with adm := adm }
  | .deliverGrant c =>
    (s.adm.deliverGrant c).map fun (adm, back) =>
      if back then regrant cfg { s with adm := adm } else { s with adm := adm }
  | .scheduleRejection c loopOpen =>
    (s.adm.scheduleRejection c loopOpen).map fun adm => { s with adm := adm }
  | .deliverRejection c => (s.adm.deliverRejection c).map fun adm => { s with adm := adm }
  | .cancel c => s.cancel c
  | .resume c => (s.adm.resume c).map fun adm => { s with adm := adm }
  | .unwind c => s.unwind cfg c
  | .dispatch c => s.dispatch cfg c
  | .drop c => s.drop cfg c
  | .putStop => s.putStop cfg
  | .close => some s.close
  | .worker action => s.workerStep cfg action

/-- Perform a list of actions. -/
def run (s : DatabaseWriter) (actions : List Action) : Option DatabaseWriter :=
  Transition.run (step cfg) s actions

end DatabaseWriter
end RapidInbox

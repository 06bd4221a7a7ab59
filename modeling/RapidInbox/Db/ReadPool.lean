import RapidInbox.Db.Admission
import RapidInbox.Lib.Run

/-!
# The SQLite read pool

`SQLiteReadPool` serves reads on a fixed number of worker threads.  Each worker has a queue and owns
its connection; admission is shared and bounded as in the writer.  For maintenance the pool is paused:
admission stops, the owned reads finish, every worker receives `_PAUSE`, closes its connection and
acknowledges, and the last acknowledgement completes the pause.  A close sends `_STOP` once nothing is
owned; a worker that fails sends `_STOP` to the others at once.

The model begins after `start`.  A step is one critical section or one operation of a thread, so a run
is an interleaving of the callers, the callbacks, the pausers, the closers and the workers.
-/

namespace RapidInbox

/-- `SQLiteReadPool._state` after `start` -/
inductive PoolState where
  | opened | pausing | paused | closing | closed
  deriving DecidableEq

/-- The constructor's arguments, as it checks them. -/
structure PoolConfig where
  maxConnections : Nat
  queueCapacity : Nat
  maxWaiters : Nat
  connections_pos : 1 ≤ maxConnections
  waiters_pos : 1 ≤ maxWaiters
  capacity_le : maxConnections ≤ queueCapacity

/-- An item of a worker's queue. -/
inductive PoolItem where
  | request (c : Nat)
  | pause
  | stop
  deriving DecidableEq

/-- Where a worker thread stands; `retry` says that the second attempt of `_run_request` is on. -/
inductive ReadPhase where
  /-- At `worker.queue.get()`. -/
  | idle
  /-- At the head of an attempt, before the checks for cancellation and the deadline. -/
  | checking (c : Nat) (retry : Bool)
  /-- In `_ensure_connection`. -/
  | connecting (c : Nat) (retry : Bool)
  /-- In `request.operation` and the checks after it. -/
  | executing (c : Nat) (retry : Bool)
  /-- In the `except sqlite3.Error` branch. -/
  | sqliteFailed (c : Nat) (retry : Bool)
  /-- In the `except BaseException` branch. -/
  | otherFailed (c : Nat)
  /-- Before `_release_capacity`. -/
  | releasing (c : Nat)
  /-- It has taken `_PAUSE`, before `_close_connection`. -/
  | pausing
  /-- Before `_acknowledge_pause`. -/
  | acknowledging
  /-- In the `except` branch of `_worker_main`, with the active request, whose slot it owns. -/
  | fatal (active : Option Nat)
  /-- After `_begin_worker_failure`. -/
  | failingActive (active : Option Nat)
  /-- Before `_release_capacity` for a request that the failure branch has failed; the active request
  is failed first, then those of `_fail_worker_queue`. -/
  | releasingFailed
  /-- In `_fail_worker_queue`. -/
  | failing
  /-- In the `finally` branch, before `_close_connection`. -/
  | finishing
  /-- Before `_worker_stopped`. -/
  | stopping
  | exited
  deriving DecidableEq

/-- A worker. -/
structure ReadWorker where
  queue : List PoolItem := []
  phase : ReadPhase := .idle
  /-- It holds an open SQLite connection. -/
  connection : Bool := false
  /-- `_Worker.connection_open` -/
  connectionOpen : Bool := false
  stopped : Bool := false
  /-- It has acknowledged the pause under way. -/
  acked : Bool := false
  /-- How many `_STOP` it has received. -/
  stops : Nat := 0
  deriving DecidableEq

def ReadWorker.push (w : ReadWorker) (item : PoolItem) : ReadWorker :=
  { w with queue := w.queue ++ [item] }

/-- Place `_STOP` in the queue. -/
def ReadWorker.pushStop (w : ReadWorker) : ReadWorker :=
  { w.push .stop with stops := w.stops + 1 }

/-- Forget the connection if it was closed. -/
def ReadWorker.closing (w : ReadWorker) (closed : Bool) : ReadWorker :=
  if closed then { w with connection := false, connectionOpen := false } else w

/-- A call of `pause_and_drain` behind its critical section; `completed` and `failed` say how the
pause it awaits has ended, before the call itself returns. -/
inductive PauserPhase where
  | waiting | completed | failed | returned | raised
  deriving DecidableEq

/-- The pool. -/
structure ReadPool where
  adm : Admission := {}
  state : PoolState := .opened
  workers : List ReadWorker
  nextWorker : Nat := 0
  pauseControlsEnqueued : Bool := false
  pauseAckCount : Nat := 0
  /-- `_pause_complete`, the future that the pausers under way share. -/
  pauseComplete : Option FutureState := none
  stopEnqueued : Bool := false
  stoppedWorkerCount : Nat := 0
  /-- `_fatal_error` is set. -/
  fatalError : Bool := false
  /-- `_closed` is done. -/
  closed : Bool := false
  pausers : List PauserPhase := []
  /-- A `pause_and_drain` has returned and `resume` has not been called since. -/
  held : Bool := false
  /-- The requests placed in a queue. -/
  dispatched : List Nat := []
  /-- The requests whose future has been completed, once for each time it was. -/
  resolved : List Nat := []
  deriving DecidableEq

namespace ReadPool

variable (cfg : PoolConfig)

/-- The pool after `start`. -/
def started : ReadPool :=
  { workers := List.replicate cfg.maxConnections {} }

/-! ## Critical sections -/

/-- `_advance_lifecycle_locked` -/
def advanceLifecycle (s : ReadPool) : ReadPool :=
  if s.adm.outstanding ≠ 0 then s
  else if s.state = .pausing ∧ s.pauseControlsEnqueued = false then
    { s with pauseControlsEnqueued := true, workers := s.workers.map (·.push .pause) }
  else if s.state = .closing ∧ s.stopEnqueued = false then
    { s with stopEnqueued := true, workers := s.workers.map ReadWorker.pushStop }
  else s

/-- `_grant_waiters_locked` and `_advance_lifecycle_locked`, as every release of a slot ends. -/
def regrant (s : ReadPool) : ReadPool :=
  advanceLifecycle { s with adm := s.adm.grantWaiters cfg.queueCapacity (s.state = .opened) }

/-- `_release_capacity`, which raises when there is nothing to release. -/
def releaseCapacity (s : ReadPool) : Option ReadPool :=
  if s.adm.outstanding ≤ 0 then none
  else some (regrant cfg { s with adm := { s.adm with outstanding := s.adm.outstanding - 1 } })

/-- A call of `_submit` up to its first suspension. -/
def submit (s : ReadPool) : ReadPool :=
  if s.state ≠ .opened then s
  else { s with adm := s.adm.acquire cfg.queueCapacity cfg.maxWaiters }

/-- `_cancel_admission` for a caller that raises, and the cancellation of its shielded future. -/
def unwind (s : ReadPool) (c : Nat) : Option ReadPool :=
  (s.adm.move c .unwinding .left).map fun adm =>
    regrant cfg { s with adm := (adm.revoke c).cancelFuture c }

/-- The critical section of `_submit`. -/
def dispatch (s : ReadPool) (c : Nat) : Option ReadPool :=
  if s.fatalError = true ∨ s.state = .closed then
    (s.adm.move c .admitted .left).map fun adm =>
      advanceLifecycle { s with adm := { adm with outstanding := adm.outstanding - 1 } }
  else
    (s.adm.move c .admitted .dispatched).map fun adm =>
      { s with adm := adm,
               workers := s.workers.modify s.nextWorker (·.push (.request c)),
               nextWorker := (s.nextWorker + 1) % cfg.maxConnections,
               dispatched := s.dispatched ++ [c] }

/-- Complete the future of the pause, for all its pausers. -/
def settlePause (s : ReadPool) (outcome : FutureState) (phase : PauserPhase) : ReadPool :=
  if s.pauseComplete = some .pending then
    { s with pauseComplete := some outcome,
             pausers := s.pausers.map fun p => if p = .waiting then phase else p }
  else s

/-- `pause_and_drain` up to its `await`. -/
def pauseAndDrain (s : ReadPool) : ReadPool :=
  match s.state with
  | .paused => { s with pausers := s.pausers ++ [.returned], held := true }
  | .opened =>
    let s := advanceLifecycle
      { s with state := .pausing, pauseComplete := some .pending, adm := s.adm.rejectWaiters }
    { s with pausers := s.pausers ++ [.waiting] }
  | .pausing => { s with pausers := s.pausers ++ [.waiting] }
  | .closing | .closed => s

/-- The pauser's coroutine resumes after the pause has ended. -/
def pauserReturns (s : ReadPool) (p : Nat) : Option ReadPool :=
  match s.pausers[p]? with
  | some .completed => some { s with pausers := s.pausers.set p .returned, held := true }
  | some .failed => some { s with pausers := s.pausers.set p .raised }
  | _ => none

/-- `resume` -/
def resume (s : ReadPool) : ReadPool :=
  match s.state with
  | .paused =>
    { s with pauseControlsEnqueued := false, pauseAckCount := 0, pauseComplete := none,
             state := .opened, held := false,
             workers := s.workers.map fun w => { w with acked := false } }
  | .opened | .closing | .closed => { s with held := false }
  | .pausing => s

/-- `close` up to its `await`. -/
def close (s : ReadPool) : ReadPool :=
  if s.state = .closing ∨ s.state = .closed then s
  else
    advanceLifecycle
      ({ s with state := .closing, adm := s.adm.rejectWaiters }.settlePause .exception .failed)

/-! ## The workers -/

/-- Replace worker `i`. -/
def setWorker (s : ReadPool) (i : Nat) (w : ReadWorker) : ReadPool :=
  { s with workers := s.workers.set i w }

/-- Complete the future of request `c`; worker `i` goes on as `w`. -/
def settle (s : ReadPool) (i : Nat) (w : ReadWorker) (c : Nat) : ReadPool :=
  { s.setWorker i w with resolved := s.resolved ++ [c] }

/-- `_acknowledge_pause` -/
def acknowledgePause (s : ReadPool) : ReadPool :=
  let s := { s with pauseAckCount := s.pauseAckCount + 1 }
  if s.pauseAckCount ≠ cfg.maxConnections then s
  else if s.state = .pausing then
    { s with state := .paused }.settlePause .result .completed
  else s

/-- `_STOP` for every worker except `i`. -/
def stopOthers (workers : List ReadWorker) (i : Nat) : List ReadWorker :=
  workers.mapIdx fun j w => if j = i then w else w.pushStop

/-- `_begin_worker_failure` of worker `i` -/
def beginWorkerFailure (s : ReadPool) (i : Nat) : ReadPool :=
  if s.fatalError then s
  else
    let s := { s with fatalError := true, state := .closing,
                      adm := s.adm.rejectWaiters }.settlePause .exception .failed
    if s.stopEnqueued then s
    else { s with stopEnqueued := true, workers := stopOthers s.workers i }

/-- `_worker_stopped` -/
def workerStopped (s : ReadPool) (i : Nat) (w : ReadWorker) : ReadPool :=
  let w := { w with connectionOpen := false, phase := .exited }
  if w.stopped then s.setWorker i w
  else
    let s := { s.setWorker i { w with stopped := true } with
      stoppedWorkerCount := s.stoppedWorkerCount + 1 }
    if s.stoppedWorkerCount = cfg.maxConnections then { s with state := .closed, closed := true }
    else s

/-- What `_run_request` finds at the head of an attempt. -/
inductive Check where
  | cancelled | expired | proceeds
  deriving DecidableEq

/-- How `_ensure_connection` ends.  With an `sqlite3.Error` the old connection may be closed or not. -/
inductive Connect where
  | reused | opened | sqliteError (closed : Bool) | otherError (closed : Bool)
  deriving DecidableEq

/-- How the operation and the checks after it end. -/
inductive Execute where
  | returned | sqliteError | otherError
  deriving DecidableEq

/-- How an `except` branch of `_run_request` ends: it completes the future, after an interruption or
an ordinary exception, perhaps with the connection closed; it starts over or gives up with the error
of SQLite; or it raises. -/
inductive Recover where
  | completes (closed : Bool) | retries | raises (closed : Bool)
  deriving DecidableEq

/-- A step of a worker thread with what its environment answers. -/
inductive PoolWorkerAction where
  | take
  /-- `worker.queue.get()` raises. -/
  | takeFails
  | check (verdict : Check)
  | connect (outcome : Connect)
  | execute (outcome : Execute)
  | recover (outcome : Recover)
  | release
  /-- `_close_connection` for `_PAUSE`; it may raise something other than an `sqlite3.Error`. -/
  | closeForPause (closes : Bool)
  | acknowledge
  | beginFailure
  | failActive
  | failQueue
  /-- `_close_connection` in the `finally` branch: it closes the connection, or has lost it, or
  raises. -/
  | closeAtEnd (closes raises : Bool)
  | stopped
  deriving DecidableEq

/-- One step of `_worker_main` of worker `i`, whose record is `w`. -/
def workerStepAt (s : ReadPool) (i : Nat) (w : ReadWorker) (action : PoolWorkerAction) :
    Option ReadPool :=
  match w.phase, action with
  | .idle, .take =>
    match w.queue with
    | [] => none
    | .stop :: rest => some (s.setWorker i { w with queue := rest, phase := .finishing })
    | .pause :: rest => some (s.setWorker i { w with queue := rest, phase := .pausing })
    | .request c :: rest => some (s.setWorker i { w with queue := rest, phase := .checking c false })
  | .idle, .takeFails => some (s.setWorker i { w with phase := .fatal none })
  | .checking c retry, .check verdict =>
    some (match verdict with
      | .cancelled | .expired => s.settle i { w with phase := .releasing c } c
      | .proceeds => s.setWorker i { w with phase := .connecting c retry })
  | .connecting c retry, .connect outcome =>
    match outcome with
    | .reused =>
      if w.connection then some (s.setWorker i { w with phase := .executing c retry }) else none
    | .opened =>
      some (s.setWorker i
        { w with connection := true, connectionOpen := true, phase := .executing c retry })
    | .sqliteError closed =>
      some (s.setWorker i { w.closing closed with phase := .sqliteFailed c retry })
    | .otherError closed =>
      some (s.setWorker i { w.closing closed with phase := .otherFailed c })
  | .executing c retry, .execute outcome =>
    some (match outcome with
      | .returned => s.settle i { w with phase := .releasing c } c
      | .sqliteError => s.setWorker i { w with phase := .sqliteFailed c retry }
      | .otherError => s.setWorker i { w with phase := .otherFailed c })
  | .sqliteFailed c retry, .recover outcome =>
    some (match outcome with
      | .completes closed => s.settle i { w.closing closed with phase := .releasing c } c
      | .retries =>
        if retry then s.settle i { w.closing true with phase := .releasing c } c
        else s.setWorker i { w.closing true with phase := .checking c true }
      | .raises closed =>
        s.setWorker i { w.closing closed with phase := .fatal (some c) })
  | .otherFailed c, .recover outcome =>
    match outcome with
    | .completes closed =>
      some (s.settle i { w.closing closed with phase := .releasing c } c)
    | .retries => none
    | .raises closed =>
      some (s.setWorker i { w.closing closed with phase := .fatal (some c) })
  | .releasing c, .release =>
    match releaseCapacity cfg s with
    | some s' => (s'.workers[i]?).map fun w' => s'.setWorker i { w' with phase := .idle }
    | none => some (s.setWorker i { w with phase := .fatal (some c) })
  | .pausing, .closeForPause closes =>
    some (s.setWorker i
      (if closes then { w.closing true with phase := .acknowledging }
        else { w with phase := .fatal none }))
  | .acknowledging, .acknowledge =>
    some (acknowledgePause cfg (s.setWorker i { w with acked := true, phase := .idle }))
  | .fatal active, .beginFailure =>
    some ((s.setWorker i { w with phase := .failingActive active }).beginWorkerFailure i)
  | .failingActive active, .failActive =>
    some (match active with
      | some c =>
        -- a future that is done is left alone, but the slot is released
        if c ∈ s.resolved then s.setWorker i { w with phase := .releasingFailed }
        else s.settle i { w with phase := .releasingFailed } c
      | none => s.setWorker i { w with phase := .failing })
  | .failing, .failQueue =>
    match w.queue with
    | [] => some (s.setWorker i { w with phase := .finishing })
    | .request c :: rest =>
      some (s.settle i { w with queue := rest, phase := .releasingFailed } c)
    | _ :: rest => some (s.setWorker i { w with queue := rest })
  | .releasingFailed, .release =>
    match releaseCapacity cfg s with
    | some s' => (s'.workers[i]?).map fun w' => s'.setWorker i { w' with phase := .failing }
    | none => some (s.setWorker i { w with phase := .finishing })
  | .finishing, .closeAtEnd closes raises =>
    some (s.setWorker i
      { w.closing closes with phase := if raises then .exited else .stopping })
  | .stopping, .stopped => some (workerStopped cfg s i w)
  | _, _ => none

/-- One step of worker `i`. -/
def workerStep (s : ReadPool) (i : Nat) (action : PoolWorkerAction) : Option ReadPool :=
  (s.workers[i]?).bind fun w => workerStepAt cfg s i w action

/-! ## Runs -/

/-- What can happen next. -/
inductive Action where
  | submit
  | scheduleGrant (c : Nat)
  /-- The loop of a granted waiter is closed. -/
  | failGrant (c : Nat)
  | deliverGrant (c : Nat)
  | scheduleRejection (c : Nat) (loopOpen : Bool)
  | deliverRejection (c : Nat)
  /-- The caller is cancelled, or its deadline passes, while it waits for admission. -/
  | interrupt (c : Nat)
  /-- The caller is cancelled while it waits for its result. -/
  | abandon (c : Nat)
  | resumeCaller (c : Nat)
  | unwind (c : Nat)
  | dispatch (c : Nat)
  | pauseAndDrain
  | pauserReturns (p : Nat)
  | resume
  | close
  | worker (i : Nat) (action : PoolWorkerAction)
  deriving DecidableEq

/-- One step of the pool and its callers. -/
def step (s : ReadPool) : Action → Option ReadPool
  | .submit => some (s.submit cfg)
  | .scheduleGrant c => (s.adm.scheduleGrant c).map fun adm => { s with adm := adm }
  | .failGrant c => (s.adm.failGrant c).map fun adm => regrant cfg { s with adm := adm }
  | .deliverGrant c =>
    (s.adm.deliverGrant c).map fun (adm, back) =>
      if back then regrant cfg { s with adm := adm } else { s with adm := adm }
  | .scheduleRejection c loopOpen =>
    (s.adm.scheduleRejection c loopOpen).map fun adm => { s with adm := adm }
  | .deliverRejection c => (s.adm.deliverRejection c).map fun adm => { s with adm := adm }
  | .interrupt c => (s.adm.move c (.awaiting false) .unwinding).map fun adm => { s with adm := adm }
  | .abandon c => (s.adm.move c .dispatched .left).map fun adm => { s with adm := adm }
  | .resumeCaller c => (s.adm.resume c).map fun adm => { s with adm := adm }
  | .unwind c => s.unwind cfg c
  | .dispatch c => s.dispatch cfg c
  | .pauseAndDrain => some s.pauseAndDrain
  | .pauserReturns p => s.pauserReturns p
  | .resume => some s.resume
  | .close => some s.close
  | .worker i action => s.workerStep cfg i action

/-- Perform a list of actions. -/
def run (s : ReadPool) (actions : List Action) : Option ReadPool :=
  Transition.run (step cfg) s actions

end ReadPool
end RapidInbox

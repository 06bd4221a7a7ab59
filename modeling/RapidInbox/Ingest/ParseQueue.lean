import RapidInbox.Domain.Address
import RapidInbox.Lib.AsyncQueue
import RapidInbox.Lib.Run

/-!
# The parse queue

`app/ingest/queue.py`.  `ParseQueue` is what the clean-up jobs use of it.  `Parser.ParseQueue` is the
object itself, with its `asyncio.Queue`, its worker tasks and the exceptions it may raise; a step of
`Parser.ParseSystem` is what one task of the event loop does between two points where it gives up
control.
-/

namespace RapidInbox

/-! ## What the clean-up jobs use -/

structure ParseTask where
  messageId : Text
  rawSizeBytes : Nat
  deriving DecidableEq, Repr

/-- `ParseQueue` (`queue.py:15-225`); `none` in the queue is the sentinel that stops a worker. -/
structure ParseQueue where
  queue : List (Option ParseTask)
  activeMessageIds : List Text
  reservedMessageIds : List Text
  reservedMessages : Nat
  reservedBytes : Nat
  maxMessages : Nat
  maxBytes : Nat
  deriving DecidableEq, Repr

namespace ParseQueue

variable (q : ParseQueue)

/-- `_has_capacity`. -/
def hasCapacity (task : ParseTask) : Bool :=
  decide (q.reservedMessages < q.maxMessages) &&
    decide (q.reservedBytes + task.rawSizeBytes ≤ q.maxBytes)

/-- `try_enqueue`. -/
def tryEnqueue (task : ParseTask) : Bool × ParseQueue :=
  if decide (q.maxBytes < task.rawSizeBytes) || decide (task.messageId ∈ q.reservedMessageIds) ||
      !q.hasCapacity task then (false, q)
  else
    (true,
      { q with
        queue := q.queue ++ [some task]
        reservedMessageIds := q.reservedMessageIds ++ [task.messageId]
        reservedMessages := q.reservedMessages + 1
        reservedBytes := q.reservedBytes + task.rawSizeBytes })

/-- `_release` of a task that has its reservation. -/
def release (task : ParseTask) : ParseQueue :=
  { q with
    reservedMessageIds := q.reservedMessageIds.filter fun id => id ≠ task.messageId
    reservedMessages := q.reservedMessages - 1
    reservedBytes := q.reservedBytes - task.rawSizeBytes }

/-- `remove_pending`: the tasks a predicate picks are released, the others keep their order. -/
def removePending (predicate : ParseTask → Bool) : Nat × ParseQueue :=
  let cleared := q.queue.filterMap fun task => task.filter predicate
  (cleared.length,
    cleared.foldl release { q with queue := q.queue.filter fun task => !task.any predicate })

/-- `_run` up to the call of the worker. -/
def begin : ParseQueue :=
  match q.queue with
  | [] => q
  | none :: rest => { q with queue := rest }
  | some task :: rest =>
    { q with queue := rest, activeMessageIds := q.activeMessageIds ++ [task.messageId] }

/-- The `finally` of `_run`. -/
def finish (task : ParseTask) : ParseQueue :=
  release
    { q with activeMessageIds := q.activeMessageIds.filter fun id => id ≠ task.messageId } task

/-- The condition of `wait_until_not_active`. -/
def isActive (predicate : Text → Bool) : Bool := q.activeMessageIds.any predicate

end ParseQueue

/-! ## The object -/

namespace Parser

open EventLoop

/-- An exception of the queue. -/
inductive QueueError where
  | valueError (message : String)
  | runtimeError (message : String)
  deriving DecidableEq, Repr

/-- Where a task of `_run` stands: it awaits `get`, it awaits `self._worker`, or it has ended. -/
inductive WorkerState where
  | idle
  | busy (task : ParseTask)
  | done (cancelled : Bool)
  deriving DecidableEq, Repr

namespace WorkerState

def isDone : WorkerState → Bool
  | done _ => true
  | _ => false

def isCancelled : WorkerState → Bool
  | done cancelled => cancelled
  | _ => false

/-- The task a worker is busy with. -/
def task? : WorkerState → Option ParseTask
  | busy task => some task
  | _ => none

end WorkerState

/-- How the call of `self._worker` ends. -/
inductive WorkerOutcome where
  | returned
  | raised
  | cancelled
  deriving DecidableEq, Repr

structure ParseQueue where
  workerCount : Nat
  maxMessages : Int
  maxBytes : Int
  queue : AsyncQueue (Option ParseTask) Nat
  /-- `_tasks`. -/
  workers : List WorkerState
  activeMessageIds : List Text
  reservedMessageIds : List Text
  reservedMessages : Int
  reservedBytes : Int
  capacityChanged : Event Nat
  deriving DecidableEq, Repr

namespace ParseQueue

/-- `__init__`. -/
def new (workerCount maxMessages maxBytes : Int) : Except QueueError ParseQueue :=
  if maxMessages < 1 then .error (.valueError "max_messages must be a positive integer")
  else if maxBytes < 1 then .error (.valueError "max_bytes must be a positive integer")
  else .ok
    { workerCount := (max 1 workerCount).toNat
      maxMessages, maxBytes
      queue := .empty
      workers := []
      activeMessageIds := []
      reservedMessageIds := []
      reservedMessages := 0
      reservedBytes := 0
      capacityChanged := ⟨true, []⟩ }

/-- `_validate_task`, which makes a task of its two values. -/
def validateTask (messageId : Text) (rawSizeBytes : Int) : Except QueueError ParseTask :=
  if messageId = [] then .error (.valueError "parse task message_id is required")
  else if rawSizeBytes < 0 then
    .error (.valueError "parse task raw_size_bytes must be a non-negative integer")
  else .ok ⟨messageId, rawSizeBytes.toNat⟩

variable (q : ParseQueue)

/-- `_has_capacity`. -/
def hasCapacity (task : ParseTask) : Bool :=
  decide (q.reservedMessages < q.maxMessages) &&
    decide (q.reservedBytes + task.rawSizeBytes ≤ q.maxBytes)

/-- `try_enqueue` behind `_validate_task`. -/
def tryEnqueueTask (task : ParseTask) : Bool × ParseQueue :=
  if q.maxBytes < task.rawSizeBytes then (false, q)
  else if task.messageId ∈ q.reservedMessageIds then (false, q)
  else if !q.hasCapacity task then (false, q)
  else
    (true,
      { q with
        reservedMessageIds := q.reservedMessageIds ++ [task.messageId]
        reservedMessages := q.reservedMessages + 1
        reservedBytes := q.reservedBytes + task.rawSizeBytes
        queue := q.queue.putNowait (some task) })

/-- `try_enqueue`. -/
def tryEnqueue (messageId : Text) (rawSizeBytes : Int) : Except QueueError (Bool × ParseQueue) :=
  (validateTask messageId rawSizeBytes).map q.tryEnqueueTask

/-- `enqueue` before its loop. -/
def checkEnqueue (messageId : Text) (rawSizeBytes : Int) : Except QueueError ParseTask := do
  let task ← validateTask messageId rawSizeBytes
  if q.maxBytes < task.rawSizeBytes then .error (.valueError "parse task exceeds queue byte budget")
  else .ok task

/-- One pass of the loop of `enqueue`: its result, if it returns.  A call that has to wait is a waiter
    of `_capacity_changed` afterwards. -/
def enqueuePass (call : Nat) (task : ParseTask) : Option Bool × ParseQueue :=
  if task.messageId ∈ q.reservedMessageIds then (some false, q)
  else
    match q.tryEnqueueTask task with
    | (true, q) => (some true, q)
    | (false, q) =>
      let q := { q with capacityChanged := q.capacityChanged.clear }
      if task.messageId ∈ q.reservedMessageIds then (some false, q)
      else if q.hasCapacity task then (none, q)
      else (none, { q with capacityChanged := q.capacityChanged.wait call })

/-- `_release`. -/
def release (task : ParseTask) : Except QueueError ParseQueue :=
  if task.messageId ∉ q.reservedMessageIds then
    .error (.runtimeError "parse queue reservation is missing")
  else
    let q :=
      { q with
        reservedMessageIds := q.reservedMessageIds.filter fun id => id ≠ task.messageId
        reservedMessages := q.reservedMessages - 1
        reservedBytes := q.reservedBytes - task.rawSizeBytes }
    if q.reservedMessages < 0 ∨ q.reservedBytes < 0 then
      .error (.runtimeError "parse queue reservation underflow")
    else .ok { q with capacityChanged := q.capacityChanged.set }

/-- `self._queue.task_done()`. -/
def taskDone : Except QueueError ParseQueue :=
  match q.queue.taskDone with
  | none => .error (.valueError "task_done() called too many times")
  | some queue => .ok { q with queue }

/-- The queue after `get_nowait`. -/
def popped (items : List (Option ParseTask)) : ParseQueue :=
  { q with queue := { q.queue with items } }

/-- The loop of `remove_pending`, over the items of the queue. -/
def removeLoop (predicate : ParseTask → Bool) :
    List (Option ParseTask) → Nat → List (Option ParseTask) → ParseQueue →
      Except QueueError (Nat × ParseQueue)
  | [], cleared, retained, q => .ok (cleared, { q with queue := q.queue.putAll retained })
  | item :: items, cleared, retained, q =>
    match item.filter predicate with
    | some task => do
        let q ← (q.popped items).release task
        let q ← q.taskDone
        removeLoop predicate items (cleared + 1) retained q
    | none => do
        let q ← (q.popped items).taskDone
        removeLoop predicate items cleared (retained ++ [item]) q

/-- `remove_pending`. -/
def removePending (predicate : ParseTask → Bool) : Except QueueError (Nat × ParseQueue) :=
  removeLoop predicate q.queue.items 0 [] q

/-- `clear_pending`. -/
def clearPending : Except QueueError (Nat × ParseQueue) := q.removePending fun _ => true

/-- The loop of `_discard_queue_contents`, over the items of the queue. -/
def discardLoop : List (Option ParseTask) → ParseQueue → Except QueueError ParseQueue
  | [], q => .ok q
  | none :: items, q => do
      let q ← (q.popped items).taskDone
      discardLoop items q
  | some task :: items, q => do
      let q ← (q.popped items).release task
      let q ← q.taskDone
      discardLoop items q

/-- `_discard_queue_contents`. -/
def discardQueueContents : Except QueueError ParseQueue := discardLoop q.queue.items q

/-- `_run` from `get` to the call of `self._worker`, or to its end for a sentinel. -/
def takeTask (worker : Nat) : Option (Except QueueError ParseQueue) :=
  match q.workers[worker]?, q.queue.items with
  | some .idle, none :: items => some do
      let q ← (q.popped items).taskDone
      .ok { q with workers := q.workers.set worker (.done false) }
  | some .idle, some task :: items =>
    let q := q.popped items
    some (.ok
      { q with
        activeMessageIds := q.activeMessageIds ++ [task.messageId]
        workers := q.workers.set worker (.busy task) })
  | _, _ => none

/-- `_run` from the end of the call of `self._worker` on. -/
def finishTask (worker : Nat) (outcome : WorkerOutcome) :
    Option (Except QueueError (ParseTask × ParseQueue)) :=
  match q.workers[worker]? with
  | some (.busy task) => some do
      let q := { q with activeMessageIds := q.activeMessageIds.filter fun id => id ≠ task.messageId }
      let q ← q.release task
      let q ← q.taskDone
      let state := if outcome = .cancelled then .done true else .idle
      .ok (task, { q with workers := q.workers.set worker state })
  | _ => none

/-- A worker is cancelled while it awaits `get`. -/
def cancelWorker (worker : Nat) : Option ParseQueue :=
  match q.workers[worker]? with
  | some .idle => some { q with workers := q.workers.set worker (.done true) }
  | _ => none

/-- `start`. -/
def start : ParseQueue :=
  if q.workers = [] then { q with workers := List.replicate q.workerCount .idle } else q

/-- `stop` up to its `await`, and whether it has workers to wait for. -/
def beginStop (discardPending : Bool) : Except QueueError (Bool × ParseQueue) :=
  if q.workers = [] then q.discardQueueContents.map fun q => (false, q)
  else do
    let q ← if discardPending then q.clearPending.map Prod.snd else .ok q
    .ok (true, { q with queue := q.queue.putAll (List.replicate q.workers.length none) })

/-- The `finally` clause of `stop`. -/
def endStop : Except QueueError ParseQueue :=
  if q.workers.all WorkerState.isDone then { q with workers := [] }.discardQueueContents else .ok q

end ParseQueue

end Parser

end RapidInbox

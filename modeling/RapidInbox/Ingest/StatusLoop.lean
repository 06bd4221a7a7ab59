import RapidInbox.Ingest.DurableAck

/-!
# The status thread and the maintenance lock

`ingest_status_loop`, `apply_maintenance_state`, `publish_final_ingest_status` and
`flush_rejected_metrics` (`ingest_app.cpp:302-432`), with the part of `start_writer` that reads the
lock (`ingest_app.cpp:41-63`).  The owner of a maintenance operation creates the lock file, completes
it with a fresh token and removes it (`storage.py:178-206, 273-290`); the daemon answers the token in
a file of its own once its queue is drained.

`IngestApp` puts the daemon's sessions and workers, the status thread and the owner side by side.  A
step is one shared operation of one of them.
-/

namespace RapidInbox

open Conc

/-- `MaintenanceState` (`batch_writer.h`). -/
structure MaintenanceState where
  active : Bool
  token : Option Text
  deriving DecidableEq, Repr

/-- The operations of the status thread. -/
inductive StatusOp where
  | statusRunning
  | maintenanceState
  | setReservationsPaused (paused : Bool)
  | queueTotalMessages
  | exchangePending
  | utcNow
  | writeRejectedMetric (timestamp : Timestamp) (count : Nat)
  | addPending (count : Nat)
  | releaseSqliteSession
  | writeMaintenanceDrained (token : Text)
  | publishIngestStatus (token : Option Text)
  deriving DecidableEq, Repr

/-- The answers; `false` from a write is an exception. -/
abbrev StatusOp.Answer : StatusOp → Type
  | .statusRunning => Bool
  | .maintenanceState => MaintenanceState
  | .setReservationsPaused _ => Unit
  | .queueTotalMessages => Nat
  | .exchangePending => Nat
  | .utcNow => Timestamp
  | .writeRejectedMetric _ _ => Bool
  | .addPending _ => Unit
  | .releaseSqliteSession => Unit
  | .writeMaintenanceDrained _ => Bool
  | .publishIngestStatus _ => Bool

abbrev statusSig : Conc.Sig := ⟨StatusOp, StatusOp.Answer⟩

/-- What the status thread keeps: `acknowledged_maintenance_token_` and the local `pending` of
    `flush_rejected_metrics`. -/
structure StatusState where
  acknowledged : Text := []
  flushing : Nat := 0
  deriving DecidableEq, Repr

abbrev StatusM (α : Type) := Conc.Act statusSig StatusState α

namespace StatusLoop

open Conc.Act (get modify)

/-- Perform one shared operation. -/
def call (op : StatusOp) : StatusM op.Answer := Conc.Act.call (S := statusSig) op

/-- `flush_rejected_metrics`; `false` is the exception that is thrown again. -/
def flushRejectedMetrics : StatusM Bool := do
  let pending : Nat ← call .exchangePending
  if pending = 0 then
    return true
  modify fun s => { s with flushing := pending }
  let now ← call .utcNow
  if ← call (.writeRejectedMetric now pending) then
    modify fun s => { s with flushing := 0 }
    return true
  call (.addPending pending)
  modify fun s => { s with flushing := 0 }
  return false

/-- The drain boundary: flush, close SQLite, acknowledge. -/
def acknowledgeDrained (token : Text) : StatusM Bool := do
  if !(← flushRejectedMetrics) then
    return false
  call .releaseSqliteSession
  if !(← call (.writeMaintenanceDrained token)) then
    return false
  modify fun s => { s with acknowledged := token }
  return true

/-- `apply_maintenance_state`, without its log line. -/
def applyMaintenanceState (maintenance : MaintenanceState) : StatusM Unit :=
  call (.setReservationsPaused maintenance.active)

/-- The maintenance part of `start_writer`; `false` is an exception that ends the start. -/
def startWriter : StatusM Bool := do
  let maintenance ← call .maintenanceState
  applyMaintenanceState maintenance
  let total : Nat ← call .queueTotalMessages
  if total = 0 then
    match maintenance.token with
    | none => call (.publishIngestStatus maintenance.token)
    | some token => do
        if !(← acknowledgeDrained token) then
          return false
        call (.publishIngestStatus maintenance.token)
  else
    call (.publishIngestStatus maintenance.token)

/-- Acknowledge a token once, when nothing is queued, reserved or in flight. -/
def acknowledgeIfDrained (total : Nat) : Option Text → StatusM Bool
  | none => return true
  | some token => do
      let s ← get
      if total = 0 ∧ s.acknowledged ≠ token then
        acknowledgeDrained token
      else
        return true

/-- Flush while there is no lock; an exception ends the turn. -/
def flushUnlessActive (maintenance : MaintenanceState) (rest : StatusM Bool) : StatusM Bool := do
  if !maintenance.active then
    if !(← flushRejectedMetrics) then
      return true
  rest

/-- The end of a turn: a turn without a token forgets the one acknowledged before. -/
def reportStatus (total : Nat) (token : Option Text) : StatusM Bool := do
  if token.isNone then
    modify fun s => { s with acknowledged := [] }
  if !(← acknowledgeIfDrained total token) then
    return true
  let _ ← call (.publishIngestStatus token)
  return true

/-- One turn of `ingest_status_loop`; `false` ends the loop, and an exception only the turn. -/
def statusTurn : StatusM Bool := do
  if !(← call .statusRunning) then
    return false
  let maintenance ← call .maintenanceState
  applyMaintenanceState maintenance
  let total : Nat ← call .queueTotalMessages
  flushUnlessActive maintenance (reportStatus total maintenance.token)

/-- The end of `publish_final_ingest_status`. -/
def reportFinalStatus (token : Option Text) : StatusM Bool := do
  let total : Nat ← call .queueTotalMessages
  if !(← call (.publishIngestStatus token)) then
    return true
  acknowledgeIfDrained total token

/-- `publish_final_ingest_status`. -/
def publishFinalIngestStatus : StatusM Bool := do
  let maintenance ← call .maintenanceState
  applyMaintenanceState maintenance
  flushUnlessActive maintenance (reportFinalStatus maintenance.token)

end StatusLoop

/-- Where the status thread stands. -/
inductive StatusThread where
  | starting (prog : Prog statusSig StatusState Bool)
  | looping (prog : Prog statusSig StatusState Bool)
  | finishing (prog : Prog statusSig StatusState Bool)
  | exited

namespace StatusThread

/-- The program the thread runs. -/
def prog? : StatusThread → Option (Prog statusSig StatusState Bool)
  | .starting prog => some prog
  | .looping prog => some prog
  | .finishing prog => some prog
  | .exited => none

/-- The thread with another program. -/
def withProg : StatusThread → Prog statusSig StatusState Bool → StatusThread
  | .starting _, prog => .starting prog
  | .looping _, prog => .looping prog
  | .finishing _, prog => .finishing prog
  | .exited, _ => .exited

/-- What follows when the program returns: the loop after a successful start, another turn, and the
    final status once the loop has ended. -/
def next : StatusThread → StatusState → Bool → StatusThread
  | .starting _, s, true => .looping (StatusLoop.statusTurn s)
  | .starting _, _, false => .exited
  | .looping _, s, true => .looping (StatusLoop.statusTurn s)
  | .looping _, s, false => .finishing (StatusLoop.publishFinalIngestStatus s)
  | .finishing _, _, _ => .exited
  | .exited, _, _ => .exited

end StatusThread

/-- The lock file: it is created empty and completed with its token. -/
inductive MaintenanceLock where
  | absent
  | unpublished
  | published (token : Text)
  deriving DecidableEq, Repr

/-- What a read of the lock yields when it succeeds (`batch_writer.cpp:1006-1025`). -/
def MaintenanceLock.state : MaintenanceLock → MaintenanceState
  | .absent => ⟨false, none⟩
  | .unpublished => ⟨true, none⟩
  | .published token => ⟨true, some token⟩

/-- What the environment decides in a step of the status thread. -/
structure StatusEnv where
  /-- The lock cannot be read, which counts as active without a token. -/
  readFails : Bool := false
  now : Timestamp := 0
  commitFails : Bool := false
  write : WriteOutcome := .done

/-- Largest count that `write_rejected_metric` accepts. -/
def maxSqliteInt : Nat := 2 ^ 63 - 1

/-- The upsert of `mail_metric_buckets.rejected`. -/
def addRejected (bucketTs count : Nat) : List (Nat × Nat) → List (Nat × Nat)
  | [] => [(bucketTs, count)]
  | (ts, rejected) :: rest =>
    if ts = bucketTs then (ts, rejected + count) :: rest
    else (ts, rejected) :: addRejected bucketTs count rest

/-- The rejections in all buckets. -/
def rejectedTotal (buckets : List (Nat × Nat)) : Nat := (buckets.map Prod.snd).sum

/-- The whole process and the maintenance owner. -/
structure IngestApp (D : Type) where
  journal : Journal D
  status : List StatusThread
  statusRunning : Bool := true
  lock : MaintenanceLock := .absent
  /-- Tokens published so far. -/
  tokens : List Text := []
  /-- Tokens whose drained acknowledgement has been written. -/
  drained : List Text := []
  rejectedPending : Nat := 0
  rejectedBuckets : List (Nat × Nat) := []
  /-- Calls of `count_recipient_rejection` so far. -/
  counted : Nat := 0

namespace IngestApp

variable {D : Type}

/-- The daemon's queue. -/
def queue (app : IngestApp D) : MailQueue := app.journal.daemon.queue

/-- Replace the queue's pause flag. -/
def pause (app : IngestApp D) (paused : Bool) : IngestApp D :=
  let d := app.journal.daemon
  { app with
    journal := { app.journal with
      daemon := { d with queue := d.queue.setReservationsPaused paused } } }

/-- One operation of a status thread. -/
def performStatus (app : IngestApp D) (env : StatusEnv) : (op : StatusOp) → op.Answer × IngestApp D
  | .statusRunning => (app.statusRunning, app)
  | .maintenanceState =>
    (if env.readFails then ⟨true, none⟩ else app.lock.state, app)
  | .setReservationsPaused paused => ((), app.pause paused)
  | .queueTotalMessages => (app.queue.totalMessages, app)
  | .exchangePending => (app.rejectedPending, { app with rejectedPending := 0 })
  | .utcNow => (env.now, app)
  | .writeRejectedMetric timestamp count =>
    if env.commitFails ∨ maxSqliteInt < count then (false, app)
    else
      (true, { app with
        rejectedBuckets := addRejected (timestamp / 60) count app.rejectedBuckets })
  | .addPending count => ((), { app with rejectedPending := app.rejectedPending + count })
  | .releaseSqliteSession => ((), app)
  | .writeMaintenanceDrained token =>
    match env.write with
    | .done => (true, { app with drained := token :: app.drained })
    | .failedBefore => (false, app)
    | .failedAfter => (false, { app with drained := token :: app.drained })
  | .publishIngestStatus _ => (env.write == .done, app)

/-- What can happen next. -/
inductive Action where
  /-- A step of a session or a worker, or a switch of the daemon other than the pause flag. -/
  | daemon (a : Daemon.Action) (readFails : Bool)
  | statusStep (i : Nat) (env : StatusEnv)
  | stopStatus
  | createLock
  | publishToken (token : Text)
  | removeLock

/-- A daemon action under the lock as it stands: `maintenance_active()` is true when the lock is
    there.  The pause flag belongs to the status thread. -/
def underLock (app : IngestApp D) (readFails : Bool) : Daemon.Action → Option Daemon.Action
  | .setReservationsPaused _ => none
  | .sessionStep i env =>
    some (.sessionStep i { env with maintenance := readFails || app.lock ≠ .absent })
  | a => some a

/-- The action makes a session count a rejected recipient. -/
def countsRejection (d : Daemon D) : Daemon.Action → Bool
  | .sessionStep i _ =>
    (d.sessions[i]?.bind (·.prog.pending?)) = some .countRecipientRejection
  | _ => false

/-- One step; `none` when the action is not enabled. -/
def step (C : DaemonConfig D) (app : IngestApp D) : Action → Option (IngestApp D)
  | .daemon a readFails =>
    (app.underLock readFails a).bind fun a =>
      (app.journal.step C a).map fun j =>
        let n := if countsRejection app.journal.daemon a then 1 else 0
        { app with
          journal := j
          rejectedPending := app.rejectedPending + n
          counted := app.counted + n }
  | .statusStep i env =>
    match app.status[i]? with
    | none => none
    | some t =>
      match t.prog? with
      | some (.call _ op k) =>
        let (answer, app') := app.performStatus env op
        some { app' with status := app.status.set i (t.withProg (k answer)) }
      | some (.ret s continues) =>
        some { app with status := app.status.set i (t.next s continues) }
      | _ => none
  | .stopStatus => some { app with statusRunning := false }
  | .createLock =>
    if app.lock = .absent then some { app with lock := .unpublished } else none
  | .publishToken token =>
    -- `uuid4().hex`: never empty and never drawn twice
    if app.lock = .unpublished ∧ token ≠ [] ∧ token ∉ app.tokens then
      some { app with lock := .published token, tokens := token :: app.tokens }
    else none
  | .removeLock => some { app with lock := .absent }

/-- A whole run. -/
def run (C : DaemonConfig D) : IngestApp D → List Action → Option (IngestApp D) :=
  Transition.run (step C)

/-- `start_writer`: one thread reads the lock, flushes and acknowledges, and goes on as the status
    thread. -/
def start (C : DaemonConfig D) (db : D) (buckets : List (Nat × Nat)) : IngestApp D where
  journal := Journal.start C db
  status := [.starting (StatusLoop.startWriter {})]
  rejectedBuckets := buckets

end IngestApp

end RapidInbox

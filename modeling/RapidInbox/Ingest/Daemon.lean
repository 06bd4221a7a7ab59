import RapidInbox.Lib.Run
import RapidInbox.Ingest.Worker

/-!
# The ingest daemon

All threads of the daemon over the state they share: any number of SMTP sessions, the writer threads,
the maintenance switch and `stop_and_drain` (`ingest_app.cpp:102-139`).  A step of the daemon is one
shared operation of one thread together with the private code that follows it, so every interleaving
of the threads is a list of `Action`s.  What a thread cannot decide (the clock, random ids, a file
system or database that fails) is the `Env` of the step.

The database is the parameter `D`; a transaction either yields the next state or throws.
-/

namespace RapidInbox

open Conc

/-- How a file write ends: a failure may come before or after the rename that makes it visible. -/
inductive WriteOutcome where
  | done
  | failedBefore
  | failedAfter
  deriving DecidableEq, Repr

/-- What the environment decides in one step. -/
structure Env where
  maintenance : Bool := false
  freshId : Text := []
  now : Fin endOfFourDigitYears := ⟨0, endOfFourDigitYears_pos⟩
  rules : Option DomainRulesSnapshot := none
  write : WriteOutcome := .done
  commitFails : Bool := false

/-- The session settings of the server (`smtp_server.cpp:566`) and the worker's. -/
structure DaemonConfig (D : Type) where
  platform : Platform
  worker : Worker.Config
  maxRecipients : Int
  maxMessageSizeBytes : Nat
  durableAck : Bool
  reservationChunkBytes : Nat
  chunk_lt : reservationChunkBytes < sizeMod
  ingestQueueMaxMessages : Nat
  ingestQueueMaxBytes : Nat
  messages_lt : ingestQueueMaxMessages < sizeMod
  bytes_lt : ingestQueueMaxBytes < sizeMod
  ingestWorkerCount : Nat
  writeSqliteRecords : D → List (MailJob × ParseResult) → Option D

/-- `SmtpSession`'s constructor as the server calls it. -/
def DaemonConfig.newSession {D : Type} (C : DaemonConfig D) (rules : DomainRulesSnapshot)
    (remoteIp sessionId : Text) : SmtpSession where
  domainRules := rules
  hasDomainCache := true
  maxRecipients := C.maxRecipients
  maxMessageSizeBytes := C.maxMessageSizeBytes
  effectiveMessageSizeBytes := C.maxMessageSizeBytes
  hasDurableWriter := true
  durableAck := C.durableAck
  reservationChunkBytes := max C.reservationChunkBytes 1
  chunk_pos := by omega
  chunk_lt := by have := C.chunk_lt; simp only [sizeMod] at *; omega
  remoteIp := remoteIp
  sessionId := sessionId

/-- A session and where its thread stands. -/
structure SessionThread where
  prog : Prog sessionSig SmtpSession (Option Reply)
  /-- The destructor has been entered. -/
  closing : Bool := false

/-- A worker and where its thread stands; `exited` threads have left `writer_loop`. -/
inductive WorkerThread where
  | looping (prog : Prog workerSig WorkerState Bool)
  | exited

/-- The shared state and all threads. -/
structure Daemon (D : Type) where
  queue : MailQueue
  running : Bool
  files : List (Text × FileContent)
  db : D
  sessions : List SessionThread
  workers : List WorkerThread
  /-- A `size_t` subtraction of the queue has wrapped. -/
  wrapped : Bool := false
  /-- Ids handed out so far. -/
  issued : List Text := []
  /-- Replies given so far, with the id of the message they acknowledge. -/
  replies : List Reply := []
  /-- Messages the queue has taken. -/
  pushed : List MailJob := []

variable {D : Type}

namespace Daemon

/-- The file visible at a path. -/
def file? (d : Daemon D) (path : Text) : Option FileContent := d.files.lookup path

/-- `write_file_atomic`: the rename replaces the file, or nothing changes. -/
def writeFile (d : Daemon D) (path : Text) (content : FileContent) :
    WriteOutcome → Bool × Daemon D
  | .done => (true, { d with files := (path, content) :: d.files })
  | .failedBefore => (false, d)
  | .failedAfter => (false, { d with files := (path, content) :: d.files })

/-- Replace the queue, or record that a subtraction wrapped. -/
def withQueue {α : Type} (d : Daemon D) (fallback : α) :
    Except SizeWrap (α × MailQueue) → α × Daemon D
  | .ok (answer, q) => (answer, { d with queue := q })
  | .error _ => (fallback, { d with wrapped := true })

/-- One shared operation of a session. -/
def performSession (d : Daemon D) (env : Env) : (op : SessionOp) → op.Answer × Daemon D
  | .maintenanceActive => (env.maintenance, d)
  | .tryReserve bytes => d.withQueue false (d.queue.tryReserve bytes)
  | .tryGrowReservation minimum preferred =>
    d.withQueue 0 (d.queue.tryGrowReservation minimum preferred)
  | .pushReserved job reserved =>
    let (taken, d') := d.withQueue false (d.queue.pushReserved job reserved)
    (taken, if taken then { d' with pushed := job :: d'.pushed } else d')
  | .cancelReservation reserved =>
    d.withQueue () ((d.queue.cancelReservation reserved).map ((), ·))
  | .makePrefixedId idPrefix =>
    let id := idPrefix ++ env.freshId
    (id, { d with issued := id :: d.issued })
  | .utcNow => (env.now.val, d)
  | .snapshotRulesIfChanged _ => (env.rules, d)
  | .writeFileAtomic path content => d.writeFile path content env.write
  | .countRecipientRejection => ((), d)

/-- One shared operation of a worker. -/
def performWorker (C : DaemonConfig D) (d : Daemon D) (env : Env) :
    (op : WorkerOp) → op.Answer × Daemon D
  | .loadRunning => (d.running, d)
  | .queueSize => (d.queue.queue.length, d)
  | .popBatch maxItems =>
    let (batch, q) := d.queue.popBatch maxItems
    (batch, { d with queue := q })
  | .writeFileAtomic path content => d.writeFile path content env.write
  | .writeSqliteRecords records =>
    if env.commitFails then (false, d)
    else
      match C.writeSqliteRecords d.db records with
      | none => (false, d)
      | some db => (true, { d with db := db })
  | .completeBatch count bytes => d.withQueue () ((d.queue.completeBatch count bytes).map ((), ·))

/-- What can happen next. -/
inductive Action where
  | connect (rules : DomainRulesSnapshot) (remoteIp sessionId : Text)
  | line (i : Nat) (bytes : Bytes)
  | overlongLine (i : Nat)
  | sessionStep (i : Nat) (env : Env)
  | destroy (i : Nat)
  | reap (i : Nat)
  | workerStep (i : Nat) (env : Env)
  | setReservationsPaused (paused : Bool)
  | close
  | stopRunning

/-- The reply a method has just returned, if it has. -/
def returnedReply : Prog sessionSig SmtpSession (Option Reply) → List Reply
  | .ret _ (some r) => [r]
  | _ => []

/-- Start a method on an idle session. -/
def startMethod (d : Daemon D) (i : Nat) (m : SessionM (Option Reply)) : Option (Daemon D) :=
  match d.sessions[i]? with
  | some ⟨.ret s _, false⟩ =>
    let prog := m s
    some { d with
      sessions := d.sessions.set i ⟨prog, false⟩
      replies := returnedReply prog ++ d.replies }
  | _ => none

/-- One step of the daemon; `none` when the action is not enabled. -/
def step (C : DaemonConfig D) (d : Daemon D) : Action → Option (Daemon D)
  | .connect rules remoteIp sessionId =>
    some { d with
      sessions := d.sessions ++ [⟨.ret (C.newSession rules remoteIp sessionId) none, false⟩] }
  | .line i bytes => d.startMethod i (SmtpSession.handleLine C.platform bytes)
  | .overlongLine i => d.startMethod i SmtpSession.rejectOverlongDataLine
  | .sessionStep i env =>
    match d.sessions[i]? with
    | some ⟨.call _ op k, closing⟩ =>
      let (answer, d') := d.performSession env op
      some { d' with
        sessions := d.sessions.set i ⟨k answer, closing⟩
        replies := returnedReply (k answer) ++ d'.replies }
    | _ => none
  | .destroy i =>
    -- also in the middle of a method, when an exception leaves it
    match d.sessions[i]? with
    | some ⟨prog, false⟩ =>
      prog.state?.map fun s =>
        { d with sessions := d.sessions.set i ⟨SmtpSession.destroy s, true⟩ }
    | _ => none
  | .reap i =>
    match d.sessions[i]? with
    | some ⟨.ret _ _, true⟩ => some { d with sessions := d.sessions.eraseIdx i }
    | _ => none
  | .workerStep i env =>
    match d.workers[i]? with
    | some (.looping (.call _ op k)) =>
      let (answer, d') := performWorker C d env op
      some { d' with workers := d.workers.set i (.looping (k answer)) }
    | some (.looping (.ret w continues)) =>
      some { d with
        workers := d.workers.set i
          (if continues then .looping (Worker.writerLoop C.worker w) else .exited) }
    | _ => none
  | .setReservationsPaused paused =>
    some { d with queue := d.queue.setReservationsPaused paused }
  | .close => some { d with queue := d.queue.close }
  | .stopRunning => if d.queue.closed then some { d with running := false } else none

/-- A whole run. -/
def run (C : DaemonConfig D) : Daemon D → List Action → Option (Daemon D) :=
  Transition.run (step C)

/-- `start_writer`: an empty queue, no sessions, and the configured number of writer threads. -/
def start (C : DaemonConfig D) (db : D) : Daemon D where
  queue :=
    { capacityMessages := C.ingestQueueMaxMessages
      capacityBytes := C.ingestQueueMaxBytes
      messages_lt := C.messages_lt
      bytes_lt := C.bytes_lt }
  running := true
  files := []
  db := db
  sessions := []
  workers := List.replicate C.ingestWorkerCount (.looping (Worker.writerLoop C.worker {}))

end Daemon

end RapidInbox

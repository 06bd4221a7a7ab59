import RapidInbox.Ingest.WorkerDrain
import RapidInbox.Ingest.DaemonQueue

/-!
# Acknowledged messages are conserved

A `Journal` is the daemon with a record beside it: the exchange of each session, the exchanges that
have been answered, and the jobs that workers have popped.  The record changes nothing that the
daemon does.  `Journal.Sound` relates both, every action preserves it, and the conservation of
acknowledged messages is read off from it: their files are written before the reply and stay, the
queue is empty once every worker has left, and a refused message was never pushed.
-/

namespace RapidInbox

open Conc

variable {D : Type}

/-- The daemon together with what has been observed of it. -/
structure Journal (D : Type) where
  daemon : Daemon D
  /-- The exchange each session is in, in the order of `daemon.sessions`. -/
  exchanges : List Exchange := []
  /-- Finished exchanges with their replies, newest first. -/
  answered : List (Exchange × Reply) := []
  /-- Jobs that workers have popped, oldest first. -/
  popped : List MailJob := []

namespace Journal

/-- The exchange that a line for session `i` begins. -/
def beginExchange (j : Journal D) (i : Nat) : Exchange :=
  { session := (j.daemon.sessions[i]?).bind (·.prog.state?) }

/-- The exchanges after an action. -/
def exchangesAfter (j : Journal D) : Daemon.Action → List Exchange
  | .connect _ _ _ => j.exchanges ++ [{}]
  | .line i _ => j.exchanges.set i (j.beginExchange i)
  | .overlongLine i => j.exchanges.set i (j.beginExchange i)
  | .sessionStep i env =>
    match j.daemon.sessions[i]?, j.exchanges[i]? with
    | some ⟨.call _ op _, _⟩, some x =>
      j.exchanges.set i (x.record op (j.daemon.performSession env op).1)
    | _, _ => j.exchanges
  | .reap i => j.exchanges.eraseIdx i
  | _ => j.exchanges

/-- The reply that session `i` has just given, with its exchange. -/
def answer (sessions : List SessionThread) (exchanges : List Exchange) (i : Nat) :
    List (Exchange × Reply) :=
  match sessions[i]?, exchanges[i]? with
  | some t, some x => (Daemon.returnedReply t.prog).map (x, ·)
  | _, _ => []

/-- The replies given by an action. -/
def answersAfter (sessions : List SessionThread) (exchanges : List Exchange) :
    Daemon.Action → List (Exchange × Reply)
  | .line i _ => answer sessions exchanges i
  | .overlongLine i => answer sessions exchanges i
  | .sessionStep i _ => answer sessions exchanges i
  | _ => []

/-- The jobs popped by an action. -/
def poppedBy (d : Daemon D) : Daemon.Action → List MailJob
  | .workerStep i _ =>
    match d.workers[i]? with
    | some (.looping (.call _ (.popBatch maxItems) _)) => (d.queue.popBatch maxItems).1
    | _ => []
  | _ => []

/-- One step of the daemon, recorded. -/
def step (C : DaemonConfig D) (j : Journal D) (a : Daemon.Action) : Option (Journal D) :=
  (j.daemon.step C a).map fun d =>
    { daemon := d
      exchanges := j.exchangesAfter a
      answered := answersAfter d.sessions (j.exchangesAfter a) a ++ j.answered
      popped := j.popped ++ poppedBy j.daemon a }

/-- A whole run. -/
def run (C : DaemonConfig D) : Journal D → List Daemon.Action → Option (Journal D) :=
  Transition.run (step C)

def start (C : DaemonConfig D) (db : D) : Journal D := { daemon := Daemon.start C db }

end Journal

/-! ## Effects of the operations -/

namespace MailQueue

variable {q q' : MailQueue}

/-- The jobs and the two switches of the queue are the same. -/
def SameJobs (q q' : MailQueue) : Prop :=
  q'.queue = q.queue ∧ q'.closed = q.closed ∧ q'.reservationsPaused = q.reservationsPaused

theorem tryReserve_sameJobs {bytes : Nat} {granted : Bool}
    (h : q.tryReserve bytes = .ok (granted, q')) : q.SameJobs q' := by
  simp only [tryReserve, bind, Except.bind, pure, Except.pure] at h
  repeat' split at h
  all_goals first
    | (cases h; done)
    | (cases h; exact ⟨rfl, rfl, rfl⟩)

theorem tryGrowReservation_sameJobs {minimum preferred added : Nat}
    (h : q.tryGrowReservation minimum preferred = .ok (added, q')) : q.SameJobs q' := by
  simp only [tryGrowReservation, bind, Except.bind, pure, Except.pure] at h
  repeat' split at h
  all_goals first
    | (cases h; done)
    | (cases h; exact ⟨rfl, rfl, rfl⟩)

theorem cancelReservation_sameJobs {n : Nat} (h : q.cancelReservation n = .ok q') :
    q.SameJobs q' := by
  simp only [cancelReservation, bind, Except.bind, pure, Except.pure] at h
  repeat' split at h
  all_goals first
    | (cases h; done)
    | (cases h; exact ⟨rfl, rfl, rfl⟩)

theorem completeBatch_sameJobs {count bytes : Nat} (h : q.completeBatch count bytes = .ok q') :
    q.SameJobs q' := by
  simp only [completeBatch, bind, Except.bind, pure, Except.pure] at h
  repeat' split at h
  all_goals first
    | (cases h; done)
    | (cases h; exact ⟨rfl, rfl, rfl⟩)

/-- A push that succeeds appends the job to an open queue; one that fails queues nothing. -/
theorem pushReserved_jobs {job : MailJob} {n : Nat} {taken : Bool}
    (h : q.pushReserved job n = .ok (taken, q')) :
    q'.closed = q.closed ∧ q'.reservationsPaused = q.reservationsPaused ∧
      q'.queue = (if taken then q.queue ++ [job] else q.queue) ∧
      (taken = true → q.closed = false) := by
  simp only [pushReserved, bind, Except.bind, pure, Except.pure] at h
  split at h
  · cases h
    exact ⟨rfl, rfl, rfl, by simp⟩
  · split at h
    · cases h
    · split at h
      · cases h
      · split at h
        · cases h
          exact ⟨rfl, rfl, rfl, by simp⟩
        · rename_i hopen
          cases h
          exact ⟨rfl, rfl, rfl, fun _ => by simpa using fun hc => hopen (.inl hc)⟩

end MailQueue

/-- What a worker's last look at the loop test tells of the daemon, from then on. -/
def WorkerPhase.Holds (d : Daemon D) : WorkerPhase → Prop
  | .working => True
  | .stopped => d.running = false
  | .drained => d.running = false ∧ d.queue.queue = []

namespace Daemon

variable {C : DaemonConfig D} {d : Daemon D}

/-- What an operation of a session may change. -/
structure SessionEffect (d d' : Daemon D) (op : SessionOp) (answer : op.Answer) : Prop where
  running : d'.running = d.running
  workers : d'.workers = d.workers
  replies : d'.replies = d.replies
  closed : d'.queue.closed = d.queue.closed
  paused : d'.queue.reservationsPaused = d.queue.reservationsPaused
  files : d'.files = d.files ∨
    ∃ path content, op = .writeFileAtomic path content ∧ d'.files = (path, content) :: d.files
  written : ∀ x : Exchange, ∀ file ∈ (x.record op answer).written, file ∈ x.written ∨ file ∈ d'.files
  jobs : (d'.queue.queue = d.queue.queue ∧ d'.pushed = d.pushed) ∨
    ∃ job reserved, op = .pushReserved job reserved ∧ d.queue.closed = false ∧
      d'.queue.queue = d.queue.queue ++ [job] ∧ d'.pushed = job :: d.pushed

/-- An operation that only replaces the queue by one with the same jobs. -/
theorem SessionEffect.of_sameJobs {op : SessionOp} {answer : op.Answer} {d' : Daemon D}
    (hq : d.queue.SameJobs d'.queue) (hrunning : d'.running = d.running)
    (hworkers : d'.workers = d.workers) (hreplies : d'.replies = d.replies)
    (hfiles : d'.files = d.files) (hpushed : d'.pushed = d.pushed)
    (hrecord : ∀ x : Exchange, x.record op answer = x) : SessionEffect d d' op answer where
  running := hrunning
  workers := hworkers
  replies := hreplies
  closed := hq.2.1
  paused := hq.2.2
  files := .inl hfiles
  written := by
    intro x file hfile
    rw [hrecord x] at hfile
    exact .inl hfile
  jobs := .inl ⟨hq.1, hpushed⟩

theorem sameJobs_refl (q : MailQueue) : q.SameJobs q := ⟨rfl, rfl, rfl⟩

/-- The effect of each operation of a session. -/
theorem performSession_effect (env : Env) (op : SessionOp) :
    SessionEffect d (d.performSession env op).2 op (d.performSession env op).1 := by
  have hinert : ∀ {op : SessionOp} (answer : op.Answer), (∀ x : Exchange, x.record op answer = x) →
      SessionEffect d d op answer :=
    fun answer hrecord => .of_sameJobs (sameJobs_refl _) rfl rfl rfl rfl rfl hrecord
  cases op with
  | maintenanceActive => exact hinert _ fun _ => rfl
  | utcNow => exact hinert _ fun _ => rfl
  | snapshotRulesIfChanged known => exact hinert _ fun _ => rfl
  | countRecipientRejection => exact hinert _ fun _ => rfl
  | makePrefixedId idPrefix =>
    exact .of_sameJobs (sameJobs_refl _) rfl rfl rfl rfl rfl fun _ => rfl
  | tryReserve bytes =>
    simp only [performSession]
    cases hq : d.queue.tryReserve bytes with
    | error e => exact .of_sameJobs (sameJobs_refl _) rfl rfl rfl rfl rfl fun _ => rfl
    | ok r =>
      exact .of_sameJobs (MailQueue.tryReserve_sameJobs hq) rfl rfl rfl rfl rfl fun _ => rfl
  | tryGrowReservation minimum preferred =>
    simp only [performSession]
    cases hq : d.queue.tryGrowReservation minimum preferred with
    | error e => exact .of_sameJobs (sameJobs_refl _) rfl rfl rfl rfl rfl fun _ => rfl
    | ok r =>
      exact .of_sameJobs (MailQueue.tryGrowReservation_sameJobs hq) rfl rfl rfl rfl rfl
        fun _ => rfl
  | cancelReservation reserved =>
    simp only [performSession]
    cases hq : d.queue.cancelReservation reserved with
    | error e => exact .of_sameJobs (sameJobs_refl _) rfl rfl rfl rfl rfl fun _ => rfl
    | ok r =>
      exact .of_sameJobs (MailQueue.cancelReservation_sameJobs hq) rfl rfl rfl rfl rfl
        fun _ => rfl
  | writeFileAtomic path content =>
    cases hw : env.write with
    | failedBefore =>
      simp only [performSession, writeFile, hw]
      exact hinert _ fun _ => rfl
    | failedAfter =>
      simp only [performSession, writeFile, hw]
      exact ⟨rfl, rfl, rfl, rfl, rfl, .inr ⟨path, content, rfl, rfl⟩,
        fun x file hfile => .inl hfile, .inl ⟨rfl, rfl⟩⟩
    | done =>
      simp only [performSession, writeFile, hw]
      refine ⟨rfl, rfl, rfl, rfl, rfl, .inr ⟨path, content, rfl, rfl⟩, ?_, .inl ⟨rfl, rfl⟩⟩
      intro x file hfile
      have hmem : file ∈ x.written ++ [(path, content)] := hfile
      rcases List.mem_append.mp hmem with hold | hnew
      · exact .inl hold
      · exact .inr (List.mem_cons.mpr (.inl (by simpa using hnew)))
  | pushReserved job reserved =>
    simp only [performSession]
    cases hq : d.queue.pushReserved job reserved with
    | error e =>
      simp only [withQueue]
      exact .of_sameJobs (sameJobs_refl _) rfl rfl rfl rfl rfl fun _ => rfl
    | ok r =>
      obtain ⟨taken, q'⟩ := r
      obtain ⟨hclosed, hpaused, hqueue, hopen⟩ := MailQueue.pushReserved_jobs hq
      simp only [withQueue]
      cases taken with
      | false =>
        exact .of_sameJobs ⟨hqueue, hclosed, hpaused⟩ rfl rfl rfl rfl rfl fun _ => rfl
      | true =>
        exact ⟨rfl, rfl, rfl, hclosed, hpaused, .inl rfl, fun x file hfile => .inl hfile,
          .inr ⟨job, reserved, rfl, hopen rfl, hqueue, rfl⟩⟩

/-- What an operation of a worker may change. -/
structure WorkerEffect (d d' : Daemon D) (op : WorkerOp) : Prop where
  running : d'.running = d.running
  sessions : d'.sessions = d.sessions
  replies : d'.replies = d.replies
  closed : d'.queue.closed = d.queue.closed
  paused : d'.queue.reservationsPaused = d.queue.reservationsPaused
  pushed : d'.pushed = d.pushed
  files : d'.files = d.files ∨
    ∃ path content, op = .writeFileAtomic path content ∧ d'.files = (path, content) :: d.files
  jobs : ((∀ maxItems, op ≠ .popBatch maxItems) ∧ d'.queue.queue = d.queue.queue) ∨
    ∃ maxItems, op = .popBatch maxItems ∧ d'.queue = (d.queue.popBatch maxItems).2

/-- The effect of each operation of a worker, and what the worker learns from its answer. -/
theorem performWorker_effect (env : Env) (op : WorkerOp) {phase : WorkerPhase}
    (hphase : phase.Holds d) (hqueued : ∀ job ∈ d.queue.queue, job.Filed) :
    WorkerEffect d (performWorker C d env op).2 op ∧
      ∃ phase', drainProtocol.post op phase (performWorker C d env op).1 phase' ∧
        phase'.Holds (performWorker C d env op).2 := by
  have hinert : ∀ {op : WorkerOp}, (∀ maxItems, op ≠ .popBatch maxItems) →
      WorkerEffect d d op := fun hop =>
    ⟨rfl, rfl, rfl, rfl, rfl, rfl, .inl rfl, .inl ⟨hop, rfl⟩⟩
  cases op with
  | loadRunning =>
    refine ⟨hinert (by simp), _, rfl, ?_⟩
    cases hrunning : d.running with
    | true => simp [performWorker, hrunning, WorkerPhase.Holds]
    | false => simp [performWorker, hrunning, WorkerPhase.Holds]
  | queueSize =>
    refine ⟨hinert (by simp), if d.queue.queue.length = 0 ∧ phase = .stopped then .drained
      else .working, rfl, ?_⟩
    split
    · rename_i hempty
      obtain ⟨hlength, rfl⟩ := hempty
      exact ⟨hphase, List.length_eq_zero_iff.mp hlength⟩
    · trivial
  | popBatch maxItems =>
    refine ⟨⟨rfl, rfl, rfl, rfl, rfl, rfl, .inl rfl, .inr ⟨maxItems, rfl, rfl⟩⟩, .working,
      ⟨rfl, ?_⟩, trivial⟩
    intro job hjob
    exact hqueued job (List.mem_of_mem_take hjob)
  | writeFileAtomic path content =>
    cases hw : env.write with
    | failedBefore =>
      simp only [performWorker, writeFile, hw]
      exact ⟨hinert (by simp), phase, rfl, hphase⟩
    | failedAfter =>
      simp only [performWorker, writeFile, hw]
      refine ⟨⟨rfl, rfl, rfl, rfl, rfl, rfl, .inr ⟨path, content, rfl, rfl⟩,
        .inl ⟨by simp, rfl⟩⟩, phase, rfl, ?_⟩
      cases phase <;> exact hphase
    | done =>
      simp only [performWorker, writeFile, hw]
      refine ⟨⟨rfl, rfl, rfl, rfl, rfl, rfl, .inr ⟨path, content, rfl, rfl⟩,
        .inl ⟨by simp, rfl⟩⟩, phase, rfl, ?_⟩
      cases phase <;> exact hphase
  | writeSqliteRecords records =>
    simp only [performWorker]
    split
    · exact ⟨hinert (by simp), phase, rfl, hphase⟩
    · split
      · exact ⟨hinert (by simp), phase, rfl, hphase⟩
      · refine ⟨⟨rfl, rfl, rfl, rfl, rfl, rfl, .inl rfl, .inl ⟨by simp, rfl⟩⟩, phase, rfl, ?_⟩
        cases phase <;> exact hphase
  | completeBatch count bytes =>
    simp only [performWorker]
    cases hq : d.queue.completeBatch count bytes with
    | error e =>
      simp only [Except.map, withQueue]
      refine ⟨⟨rfl, rfl, rfl, rfl, rfl, rfl, .inl rfl, .inl ⟨by simp, rfl⟩⟩, phase, rfl, ?_⟩
      cases phase <;> exact hphase
    | ok q' =>
      obtain ⟨hqueue, hclosed, hpaused⟩ := MailQueue.completeBatch_sameJobs hq
      simp only [Except.map, withQueue]
      refine ⟨⟨rfl, rfl, rfl, hclosed, hpaused, rfl, .inl rfl, .inl ⟨by simp, hqueue⟩⟩, phase,
        rfl, ?_⟩
      cases phase with
      | working => trivial
      | stopped => exact hphase
      | drained => exact ⟨hphase.1, hqueue.trans hphase.2⟩

end Daemon

/-! ## The invariant -/

/-- A session's method, or its destructor, follows the exchange protocol. -/
def SessionThread.Exchanges (durable : Bool) (t : SessionThread) (x : Exchange) : Prop :=
  if t.closing then
    t.prog.Follows (exchangeProtocol durable) (fun s r _ => s.durableAck = durable ∧ r = none) x
  else t.prog.Follows (exchangeProtocol durable) (SmtpSession.Answered durable) x

theorem SessionThread.Exchanges.durableAck {durable : Bool} {t : SessionThread} {x : Exchange}
    (h : t.Exchanges durable x) {s : SmtpSession} (hs : t.prog.state? = some s) :
    s.durableAck = durable := by
  unfold SessionThread.Exchanges at h
  cases hp : t.prog with
  | ret s' r =>
    obtain rfl : s' = s := by simpa [hp] using hs
    rw [hp] at h
    split at h
    · exact h.1
    · exact h.durableAck
  | fault => simp [hp, Prog.state?] at hs
  | call s' op k =>
    obtain rfl : s' = s := by simpa [hp] using hs
    rw [hp] at h
    split at h <;> exact h.1

/-- A worker follows the drain protocol; one that has left had seen the queue drained. -/
def WorkerThread.Drains : WorkerThread → WorkerPhase → Prop
  | .looping prog, phase => prog.Follows drainProtocol Worker.TurnDone phase
  | .exited, phase => phase = .drained

/-- The thread has left `writer_loop`. -/
def WorkerThread.hasExited : WorkerThread → Bool
  | .exited => true
  | .looping _ => false

namespace Journal

variable {C : DaemonConfig D} {j j' : Journal D}

/-- What an answered exchange has established. -/
structure Kept (durable : Bool) (files : List (Text × FileContent)) (x : Exchange) (r : Reply) :
    Prop where
  stored : ∀ file ∈ x.written, file ∈ files
  acknowledged : durable = true → ∀ id, r = queuedReply id →
    ∃ job : MailJob, job.Filed ∧ job.messageId = id ∧ x.Stores job
  refused : r.code ≠ 250 → x.pushed = []

/-- The record agrees with the daemon. -/
structure Sound (C : DaemonConfig D) (j : Journal D) : Prop where
  sessions :
    List.Forall₂ (SessionThread.Exchanges C.durableAck) j.daemon.sessions j.exchanges
  workers : ∃ phases, List.Forall₂ WorkerThread.Drains j.daemon.workers phases ∧
    ∀ phase ∈ phases, phase.Holds j.daemon
  queued : ∀ job ∈ j.daemon.queue.queue, job.Filed
  files : ∀ file ∈ j.daemon.files, InOrder file.1 file.2
  stored : ∀ x ∈ j.exchanges, ∀ file ∈ x.written, file ∈ j.daemon.files
  answers : ∀ p ∈ j.answered, Kept C.durableAck j.daemon.files p.1 p.2
  replies : j.answered.map Prod.snd = j.daemon.replies
  fifo : j.popped ++ j.daemon.queue.queue = j.daemon.pushed.reverse
  closed : j.daemon.running = false → j.daemon.queue.closed = true

theorem WorkerPhase_holds_mono {d d' : Daemon D} {phase : WorkerPhase} (h : phase.Holds d)
    (hrunning : d.running = false → d'.running = false)
    (hqueue : d.running = false → d.queue.queue = [] → d'.queue.queue = []) : phase.Holds d' := by
  cases phase with
  | working => trivial
  | stopped => exact hrunning h
  | drained => exact ⟨hrunning h.1, hqueue h.1 h.2⟩

theorem Kept.mono {durable : Bool} {files files' : List (Text × FileContent)} {x : Exchange}
    {r : Reply} (h : Kept durable files x r) (hfiles : ∀ file ∈ files, file ∈ files') :
    Kept durable files' x r :=
  ⟨fun file hfile => hfiles file (h.stored file hfile), h.acknowledged, h.refused⟩

/-- A reply just given is kept. -/
theorem answer_kept {durable : Bool} {sessions : List SessionThread} {exchanges : List Exchange}
    {files : List (Text × FileContent)} {i : Nat}
    (h : List.Forall₂ (SessionThread.Exchanges durable) sessions exchanges)
    (hstored : ∀ x ∈ exchanges, ∀ file ∈ x.written, file ∈ files) :
    ∀ p ∈ answer sessions exchanges i, Kept durable files p.1 p.2 := by
  intro p hp
  unfold answer at hp
  split at hp
  · rename_i t x ht hx
    obtain ⟨r, hr, rfl⟩ := List.mem_map.mp hp
    obtain ⟨x', hx', hfollows⟩ := h.getElem?_left ht
    obtain rfl : x' = x := Option.some.inj (hx'.symm.trans hx)
    unfold SessionThread.Exchanges at hfollows
    cases hprog : t.prog with
    | fault => simp [hprog, Daemon.returnedReply] at hr
    | call s op k => simp [hprog, Daemon.returnedReply] at hr
    | ret s reply =>
      cases reply with
      | none => simp [hprog, Daemon.returnedReply] at hr
      | some reply =>
        obtain rfl : r = reply := by simpa [hprog, Daemon.returnedReply] using hr
        rw [hprog] at hfollows
        split at hfollows
        · exact absurd hfollows.2 (by simp)
        · refine ⟨hstored x' (List.mem_of_getElem? hx), ?_, ?_⟩
          · intro hd id hid
            exact hfollows.acknowledged hd id (congrArg some hid)
          · exact hfollows.refused r rfl
  · simp at hp

theorem map_snd_answer {sessions : List SessionThread} {exchanges : List Exchange} {i : Nat}
    {t : SessionThread} {x : Exchange} (ht : sessions[i]? = some t) (hx : exchanges[i]? = some x) :
    (answer sessions exchanges i).map Prod.snd = Daemon.returnedReply t.prog := by
  simp only [answer, ht, hx, List.map_map]
  exact List.map_id _

theorem sound_start (C : DaemonConfig D) (db : D) : Sound C (start C db) where
  sessions := .nil
  workers := by
    refine ⟨List.replicate C.ingestWorkerCount .working, ?_, ?_⟩
    · unfold start Daemon.start
      generalize C.ingestWorkerCount = n
      induction n with
      | zero => exact .nil
      | succ n ih => exact .cons (Worker.drains_writerLoop C.worker rfl) ih
    · intro phase hphase
      obtain rfl := List.eq_of_mem_replicate hphase
      trivial
  queued := by simp [start, Daemon.start]
  files := by simp [start, Daemon.start]
  stored := by simp [start]
  answers := by simp [start]
  replies := rfl
  fifo := rfl
  closed := by simp [start, Daemon.start]

/-! ## Steps -/

/-- The common part of all session actions: the daemon is unchanged but for the sessions, the
    replies, the files and the queue. -/
structure SessionStep (C : DaemonConfig D) (j : Journal D) (d : Daemon D)
    (exchanges : List Exchange) (replies : List (Exchange × Reply)) : Prop where
  sessions : List.Forall₂ (SessionThread.Exchanges C.durableAck) d.sessions exchanges
  workers : d.workers = j.daemon.workers
  running : d.running = j.daemon.running
  closed : d.queue.closed = j.daemon.queue.closed
  files : ∀ file ∈ j.daemon.files, file ∈ d.files
  inOrder : ∀ file ∈ d.files, InOrder file.1 file.2
  stored : ∀ x ∈ exchanges, ∀ file ∈ x.written, file ∈ d.files
  answers : ∀ p ∈ replies, Kept C.durableAck d.files p.1 p.2
  replies : d.replies = replies.map Prod.snd ++ j.daemon.replies
  jobs : (d.queue.queue = j.daemon.queue.queue ∧ d.pushed = j.daemon.pushed) ∨
    ∃ job : MailJob, job.Filed ∧ j.daemon.queue.closed = false ∧
      d.queue.queue = j.daemon.queue.queue ++ [job] ∧ d.pushed = job :: j.daemon.pushed

theorem SessionStep.sound {d : Daemon D} {exchanges : List Exchange}
    {replies : List (Exchange × Reply)} (h : Sound C j) (hs : SessionStep C j d exchanges replies) :
    Sound C ⟨d, exchanges, replies ++ j.answered, j.popped⟩ where
  sessions := hs.sessions
  workers := by
    obtain ⟨phases, hphases, hholds⟩ := h.workers
    refine ⟨phases, by rw [hs.workers]; exact hphases, ?_⟩
    intro phase hphase
    refine WorkerPhase_holds_mono (hholds phase hphase) (fun hr => hs.running.trans hr) ?_
    intro hr hempty
    obtain ⟨hqueue, -⟩ | ⟨job, -, hopen, -, -⟩ := hs.jobs
    · exact hqueue.trans hempty
    · rw [h.closed hr] at hopen
      cases hopen
  queued := by
    obtain ⟨hqueue, -⟩ | ⟨job, hjob, -, hqueue, -⟩ := hs.jobs
    · rw [hqueue]
      exact h.queued
    · rw [hqueue]
      intro job' hjob'
      rcases List.mem_append.mp hjob' with hold | hnew
      · exact h.queued job' hold
      · obtain rfl := List.mem_singleton.mp hnew
        exact hjob
  files := hs.inOrder
  stored := hs.stored
  answers := by
    intro p hp
    rcases List.mem_append.mp hp with hnew | hold
    · exact hs.answers p hnew
    · exact (h.answers p hold).mono hs.files
  replies := by
    rw [List.map_append, h.replies, hs.replies]
  fifo := by
    obtain ⟨hqueue, hpushed⟩ | ⟨job, -, -, hqueue, hpushed⟩ := hs.jobs
    · rw [hqueue, hpushed]
      exact h.fifo
    · rw [hqueue, hpushed, List.reverse_cons, ← h.fifo, List.append_assoc]
  closed := by
    rw [hs.running, hs.closed]
    exact h.closed

/-- Give session `i` a new thread and a new exchange. -/
theorem Sound.setSession (h : Sound C j) {i : Nat} {t : SessionThread} {x : Exchange}
    (hi : i < j.daemon.sessions.length) (ht : t.Exchanges C.durableAck x)
    (hx : ∀ file ∈ x.written, file ∈ j.daemon.files) :
    SessionStep C j { j.daemon with
        sessions := j.daemon.sessions.set i t
        replies := Daemon.returnedReply t.prog ++ j.daemon.replies }
      (j.exchanges.set i x) (answer (j.daemon.sessions.set i t) (j.exchanges.set i x) i) := by
  have hlength := h.sessions.length_eq
  have hsessions := h.sessions.set i ht
  have hstored : ∀ y ∈ j.exchanges.set i x, ∀ file ∈ y.written, file ∈ j.daemon.files := by
    intro y hy
    rcases List.mem_or_eq_of_mem_set hy with hold | rfl
    · exact h.stored y hold
    · exact hx
  refine ⟨hsessions, rfl, rfl, rfl, fun _ hf => hf, h.files, hstored,
    answer_kept hsessions hstored, ?_, .inl ⟨rfl, rfl⟩⟩
  rw [map_snd_answer (t := t) (x := x) (List.getElem?_set_self hi)
    (List.getElem?_set_self (hlength ▸ hi))]

/-- A method started on an idle session begins an exchange. -/
theorem Sound.startMethod (h : Sound C j) {i : Nat} {m : SessionM (Option Reply)} {d : Daemon D}
    (hm : ∀ s, s.durableAck = C.durableAck →
      SmtpSession.ewp C.durableAck m (SmtpSession.Answered C.durableAck) s (.start s))
    (hstep : j.daemon.startMethod i m = some d) :
    SessionStep C j d (j.exchanges.set i (j.beginExchange i))
      (answer d.sessions (j.exchanges.set i (j.beginExchange i)) i) := by
  unfold Daemon.startMethod at hstep
  split at hstep
  · rename_i s r hget
    cases hstep
    obtain ⟨x, hx, hfollows⟩ := h.sessions.getElem?_left hget
    obtain ⟨hi, -⟩ := List.getElem?_eq_some_iff.mp hget
    have hm' := hm s (hfollows.durableAck rfl)
    have hbegin : j.beginExchange i = .start s := by
      rw [beginExchange, hget]
      rfl
    rw [hbegin]
    exact h.setSession hi (t := ⟨m s, false⟩) hm' (by simp [Exchange.start])
  · cases hstep

/-- One operation of a session moves its exchange along. -/
theorem Sound.sessionStep (h : Sound C j) {i : Nat} {env : Env} {d : Daemon D}
    (hstep : j.daemon.step C (.sessionStep i env) = some d) :
    SessionStep C j d (j.exchangesAfter (.sessionStep i env))
      (answer d.sessions (j.exchangesAfter (.sessionStep i env)) i) := by
  simp only [Daemon.step] at hstep
  split at hstep
  · rename_i s op k closing hget
    cases hstep
    obtain ⟨x, hx, hfollows⟩ := h.sessions.getElem?_left hget
    obtain ⟨hi, -⟩ := List.getElem?_eq_some_iff.mp hget
    have heffect := Daemon.performSession_effect (d := j.daemon) env op
    generalize hperform : j.daemon.performSession env op = result at heffect ⊢
    obtain ⟨r, d'⟩ := result
    dsimp only at heffect ⊢
    have hafter : j.exchangesAfter (.sessionStep i env) = j.exchanges.set i (x.record op r) := by
      simp only [exchangesAfter, hget, hx, hperform]
    rw [hafter]
    -- the rest of the thread follows the protocol from the recorded answer
    have hnext : SessionThread.Exchanges C.durableAck ⟨k r, closing⟩ (x.record op r) := by
      cases closing <;> exact hfollows.2.2 r _ rfl
    have hpre : (exchangeProtocol C.durableAck).pre op s x := by
      cases closing <;> exact hfollows.2.1
    have hsessions := h.sessions.set i hnext
    have hgrow : ∀ file ∈ j.daemon.files, file ∈ d'.files := by
      intro file hfile
      obtain hsame | ⟨path, content, -, hcons⟩ := heffect.files
      · rw [hsame]
        exact hfile
      · rw [hcons]
        exact List.mem_cons_of_mem _ hfile
    have hstored : ∀ y ∈ j.exchanges.set i (x.record op r), ∀ file ∈ y.written,
        file ∈ d'.files := by
      intro y hy file hfile
      rcases List.mem_or_eq_of_mem_set hy with hold | rfl
      · exact hgrow file (h.stored y hold file hfile)
      · rcases heffect.written x file hfile with hold | hnew
        · exact hgrow file (h.stored x (List.mem_of_getElem? hx) file hold)
        · exact hnew
    refine ⟨hsessions, heffect.workers, heffect.running, heffect.closed, hgrow, ?_, hstored,
      answer_kept hsessions hstored, ?_, ?_⟩
    · intro file hfile
      obtain hsame | ⟨path, content, rfl, hcons⟩ := heffect.files
      · exact h.files file (hsame ▸ hfile)
      · rcases List.mem_cons.mp (hcons ▸ hfile) with rfl | hold
        · exact hpre.2
        · exact h.files file hold
    · rw [map_snd_answer (t := ⟨k r, closing⟩) (x := x.record op r) (List.getElem?_set_self hi)
        (List.getElem?_set_self (h.sessions.length_eq ▸ hi)), heffect.replies]
    · obtain hsame | ⟨job, reserved, rfl, hopen, hqueue, hpushed⟩ := heffect.jobs
      · exact .inl hsame
      · exact .inr ⟨job, hpre, hopen, hqueue, hpushed⟩
  · cases hstep

/-- One operation of a worker. -/
theorem Sound.workerStep (h : Sound C j) {i : Nat} {env : Env} {d : Daemon D}
    (hstep : j.daemon.step C (.workerStep i env) = some d) :
    Sound C ⟨d, j.exchanges, j.answered, j.popped ++ poppedBy j.daemon (.workerStep i env)⟩ := by
  obtain ⟨phases, hphases, hholds⟩ := h.workers
  simp only [Daemon.step] at hstep
  split at hstep
  · rename_i w op k hget
    cases hstep
    obtain ⟨phase, hphase, hfollows⟩ := hphases.getElem?_left hget
    obtain ⟨heffect, phase', hpost, hnext⟩ := Daemon.performWorker_effect (C := C) env op
      (hholds phase (List.mem_of_getElem? hphase)) h.queued
    generalize hperform : Daemon.performWorker C j.daemon env op = result at heffect hpost hnext ⊢
    obtain ⟨r, d'⟩ := result
    dsimp only at heffect hpost hnext ⊢
    have hthread : WorkerThread.Drains (.looping (k r)) phase' := hfollows.2.2 r phase' hpost
    -- a pop empties what it takes off the queue, everything else keeps the queue
    have hempty : j.daemon.queue.queue = [] → d'.queue.queue = [] := by
      intro hnil
      obtain ⟨-, hqueue⟩ | ⟨maxItems, -, hqueue⟩ := heffect.jobs
      · exact hqueue.trans hnil
      · rw [hqueue]
        simp [MailQueue.popBatch, hnil]
    have hgrow : ∀ file ∈ j.daemon.files, file ∈ d'.files := by
      intro file hfile
      obtain hsame | ⟨path, content, -, hcons⟩ := heffect.files
      · rw [hsame]
        exact hfile
      · rw [hcons]
        exact List.mem_cons_of_mem _ hfile
    refine ⟨?_, ?_, ?_, ?_, ?_, ?_, ?_, ?_, ?_⟩
    · simpa only [heffect.sessions] using h.sessions
    · refine ⟨phases.set i phase', hphases.set i hthread, ?_⟩
      intro p hp
      rcases List.mem_or_eq_of_mem_set hp with hold | rfl
      · refine WorkerPhase_holds_mono (hholds p hold) ?_ fun _ => hempty
        intro hr
        exact heffect.running.trans hr
      · exact WorkerPhase_holds_mono hnext (fun hr => hr) fun _ hnil => hnil
    · intro job hjob
      obtain ⟨-, hqueue⟩ | ⟨maxItems, -, hqueue⟩ := heffect.jobs
      · exact h.queued job (hqueue ▸ hjob)
      · have hdrop : job ∈ j.daemon.queue.queue.drop maxItems := by
          have := hjob
          rw [show d'.queue = _ from hqueue] at this
          exact this
        exact h.queued job (List.mem_of_mem_drop hdrop)
    · intro file hfile
      obtain hsame | ⟨path, content, rfl, hcons⟩ := heffect.files
      · exact h.files file (hsame ▸ hfile)
      · rcases List.mem_cons.mp (hcons ▸ hfile) with rfl | hold
        · exact hfollows.2.1.2
        · exact h.files file hold
    · intro x hx file hfile
      exact hgrow file (h.stored x hx file hfile)
    · intro p hp
      exact (h.answers p hp).mono hgrow
    · exact h.replies.trans heffect.replies.symm
    · obtain ⟨hop, hqueue⟩ | ⟨maxItems, rfl, hqueue⟩ := heffect.jobs
      · have hnone : poppedBy j.daemon (.workerStep i env) = [] := by
          simp only [poppedBy, hget]
          split
          · rename_i heq
            cases heq
            exact absurd rfl (hop _)
          · rfl
        rw [hnone, List.append_nil]
        simpa only [hqueue, heffect.pushed] using h.fifo
      · have htaken : poppedBy j.daemon (.workerStep i env) =
            (j.daemon.queue.popBatch maxItems).1 := by
          simp only [poppedBy, hget]
        rw [htaken]
        simp only [hqueue, heffect.pushed, MailQueue.popBatch, List.append_assoc,
          List.take_append_drop]
        exact h.fifo
    · simpa only [heffect.running, heffect.closed] using h.closed
  · rename_i w continues hget
    cases hstep
    obtain ⟨phase, hphase, hfollows⟩ := hphases.getElem?_left hget
    have hdone : Worker.TurnDone w continues phase := hfollows
    have hnone : poppedBy j.daemon (.workerStep i env) = [] := by
      simp only [poppedBy, hget]
    rw [hnone, List.append_nil]
    refine ⟨h.sessions, ⟨phases.set i phase, hphases.set i ?_, ?_⟩, h.queued, h.files, h.stored,
      h.answers, h.replies, h.fifo, h.closed⟩
    · cases continues with
      | true => exact Worker.drains_writerLoop C.worker hdone.1
      | false => exact hdone.2 rfl
    · intro p hp
      have hmem : p ∈ phases := by
        rcases List.mem_or_eq_of_mem_set hp with hold | rfl
        · exact hold
        · exact List.mem_of_getElem? hphase
      exact WorkerPhase_holds_mono (hholds p hmem) (fun hr => hr) fun _ hnil => hnil
  · cases hstep

/-- The step lemma: whatever happens next, the record still agrees with the daemon. -/
theorem Sound.step {a : Daemon.Action} (h : Sound C j) (hstep : j.step C a = some j') :
    Sound C j' := by
  obtain ⟨d, hd, rfl⟩ := Option.map_eq_some_iff.mp hstep
  -- actions that change neither a session's exchange nor the queue's jobs
  have hquiet : ∀ {e : Daemon D} {exchanges : List Exchange},
      List.Forall₂ (SessionThread.Exchanges C.durableAck) e.sessions exchanges →
      (∀ x ∈ exchanges, ∀ file ∈ x.written, file ∈ j.daemon.files) →
      e.workers = j.daemon.workers → e.files = j.daemon.files → e.replies = j.daemon.replies →
      e.queue.queue = j.daemon.queue.queue → e.pushed = j.daemon.pushed →
      (j.daemon.running = false → e.running = false) →
      (e.running = false → e.queue.closed = true) →
      Sound C ⟨e, exchanges, j.answered, j.popped⟩ := by
    intro e exchanges hsessions hstored hworkers hfiles hreplies hqueue hpushed hrunning hclosed
    obtain ⟨phases, hphases, hholds⟩ := h.workers
    refine ⟨hsessions, ⟨phases, hworkers ▸ hphases, ?_⟩, hqueue ▸ h.queued, hfiles ▸ h.files,
      hfiles ▸ hstored, hfiles ▸ h.answers, h.replies.trans hreplies.symm, ?_, hclosed⟩
    · intro phase hphase
      exact WorkerPhase_holds_mono (hholds phase hphase) hrunning fun _ hnil => hqueue.trans hnil
    · exact (congrArg (j.popped ++ ·) hqueue).trans (h.fifo.trans (by rw [hpushed]))
  cases a with
  | connect rules remoteIp sessionId =>
    cases hd
    simp only [exchangesAfter, answersAfter, poppedBy, List.nil_append, List.append_nil]
    refine hquiet ?_ ?_ rfl rfl rfl rfl rfl (fun hr => hr) h.closed
    · have hnew : SessionThread.Exchanges C.durableAck
          ⟨.ret (C.newSession rules remoteIp sessionId) none, false⟩ {} :=
        .of_notQueued rfl SmtpSession.notQueued_none rfl
      exact List.rel_append h.sessions (.cons hnew .nil)
    · intro x hx
      rcases List.mem_append.mp hx with hold | hnew
      · exact h.stored x hold
      · obtain rfl := List.mem_singleton.mp hnew
        simp
  | line i bytes =>
    have hs := h.startMethod (fun s hs => SmtpSession.ewp_handleLine C.platform bytes hs) hd
    simpa [exchangesAfter, answersAfter, poppedBy] using hs.sound h
  | overlongLine i =>
    have hs := h.startMethod (fun s hs => SmtpSession.ewp_rejectOverlongDataLine hs) hd
    simpa [exchangesAfter, answersAfter, poppedBy] using hs.sound h
  | sessionStep i env =>
    have hs := (h.sessionStep hd).sound h
    simpa [answersAfter, poppedBy] using hs
  | destroy i =>
    simp only [exchangesAfter, answersAfter, poppedBy, List.nil_append, List.append_nil]
    simp only [Daemon.step] at hd
    split at hd
    · rename_i prog hget
      obtain ⟨s, hstate, rfl⟩ := Option.map_eq_some_iff.mp hd
      obtain ⟨x, hx, hfollows⟩ := h.sessions.getElem?_left hget
      have hclosing : SessionThread.Exchanges C.durableAck ⟨SmtpSession.destroy s, true⟩ x :=
        SmtpSession.ewp_destroy (hfollows.durableAck hstate)
      refine hquiet ?_ h.stored rfl rfl rfl rfl rfl (fun hr => hr) h.closed
      have hset := h.sessions.set i hclosing
      obtain ⟨hi, rfl⟩ := List.getElem?_eq_some_iff.mp hx
      rwa [List.set_getElem_self] at hset
    · cases hd
  | reap i =>
    simp only [exchangesAfter, answersAfter, poppedBy, List.nil_append, List.append_nil]
    simp only [Daemon.step] at hd
    split at hd
    · cases hd
      refine hquiet (h.sessions.eraseIdx i) ?_ rfl rfl rfl rfl rfl (fun hr => hr) h.closed
      intro x hx
      exact h.stored x (List.mem_of_mem_eraseIdx hx)
    · cases hd
  | workerStep i env =>
    simp only [exchangesAfter, answersAfter, List.nil_append]
    exact h.workerStep hd
  | setReservationsPaused paused =>
    cases hd
    simp only [exchangesAfter, answersAfter, poppedBy, List.nil_append, List.append_nil]
    exact hquiet h.sessions h.stored rfl rfl rfl rfl rfl (fun hr => hr) h.closed
  | close =>
    cases hd
    simp only [exchangesAfter, answersAfter, poppedBy, List.nil_append, List.append_nil]
    exact hquiet h.sessions h.stored rfl rfl rfl rfl rfl (fun hr => hr) fun _ => rfl
  | stopRunning =>
    simp only [exchangesAfter, answersAfter, poppedBy, List.nil_append, List.append_nil]
    simp only [Daemon.step] at hd
    split at hd
    · rename_i hclosed
      cases hd
      exact hquiet h.sessions h.stored rfl rfl rfl rfl rfl (fun _ => rfl) fun _ => hclosed
    · cases hd

/-- The run lemma. -/
theorem Sound.run {as : List Daemon.Action} (h : Sound C j) (hrun : j.run C as = some j') :
    Sound C j' :=
  Transition.run_invariant (fun _ _ _ hs hstep => Sound.step hs hstep) h hrun

/-- Answered exchanges stay on record. -/
theorem answered_run {as : List Daemon.Action} (hrun : j.run C as = some j') :
    ∀ p ∈ j.answered, p ∈ j'.answered := by
  have hkeep : ∀ (later : Journal D) (a : Daemon.Action) (later' : Journal D),
      (∀ p ∈ j.answered, p ∈ later.answered) → step C later a = some later' →
      ∀ p ∈ j.answered, p ∈ later'.answered := by
    intro later a later' hinv hstep p hp
    obtain ⟨d, -, rfl⟩ := Option.map_eq_some_iff.mp hstep
    exact List.mem_append_right _ (hinv p hp)
  exact Transition.run_invariant hkeep (fun _ hp => hp) hrun

/-! ## Conservation -/

/-- The manifest at the job's path names its raw file. -/
def HasManifest (d : Daemon D) (job : MailJob) : Prop :=
  ∃ content, d.file? job.manifestPath = some content ∧ content.Names job

/-- A file once written under a manifest path stays a manifest of its message. -/
theorem hasManifest_of_mem {d : Daemon D} {job : MailJob} (hjob : job.Filed)
    (hfiles : ∀ file ∈ d.files, InOrder file.1 file.2) {content : FileContent}
    (hmem : (job.manifestPath, content) ∈ d.files) : HasManifest d job := by
  unfold HasManifest Daemon.file?
  cases hlookup : d.files.lookup job.manifestPath with
  | none =>
    rw [List.lookup_eq_none_iff] at hlookup
    exact absurd (hlookup _ hmem) (by simp)
  | some found =>
    obtain ⟨before, after, heq, -⟩ := List.lookup_eq_some_iff.mp hlookup
    have hfound : (job.manifestPath, found) ∈ d.files := by simp [heq]
    exact ⟨found, rfl, hfiles _ hfound job hjob rfl⟩

/-- What holds of the messages answered so far, now and in any later state. -/
structure Conserved (j later : Journal D) : Prop where
  /-- Every reply of the daemon stands at the end of an exchange. -/
  replies : j.daemon.replies = j.answered.map Prod.snd
  /-- A message answered as queued had its raw file and then its pending manifest written, both of
      what the session had received when the line came; the job is the one the queue took, if it
      took one, and the manifest is there from then on. -/
  acknowledged : ∀ x id, (x, queuedReply id) ∈ j.answered → ∃ job : MailJob, job.messageId = id ∧
    x.Stores job ∧ HasManifest j.daemon job ∧ HasManifest later.daemon job
  /-- An exchange answered with another code has queued nothing. -/
  refused : ∀ x r, (x, r) ∈ j.answered → r.code ≠ 250 → x.pushed = []
  /-- Jobs leave the queue in the order they entered it, and once some worker has left, so have all
      jobs. -/
  drained : j.popped ++ j.daemon.queue.queue = j.daemon.pushed.reverse ∧
    ((∃ w ∈ j.daemon.workers, w.hasExited = true) →
      j.daemon.queue.queue = [] ∧ j.popped = j.daemon.pushed.reverse)

/-- With durable acknowledgement on, and whatever the threads, the file system and the database do,
    acknowledged messages are conserved. -/
theorem durable_ack_conserved (C : DaemonConfig D) (hdurable : C.durableAck = true) (db : D)
    (as bs : List Daemon.Action) (j later : Journal D) (hrun : (start C db).run C as = some j)
    (hlater : j.run C bs = some later) : j.Conserved later := by
  have hsound := (sound_start C db).run hrun
  have hsound' := hsound.run hlater
  refine ⟨hsound.replies.symm, ?_, ?_, hsound.fifo, ?_⟩
  · intro x id hx
    have hkept := hsound.answers _ hx
    have hkept' := hsound'.answers _ (answered_run hlater _ hx)
    obtain ⟨job, hjob, hid, hstores⟩ := hkept.acknowledged hdurable id rfl
    have hmem : (job.manifestPath, FileContent.manifest job none) ∈ x.written := by
      rw [hstores.written]
      simp
    exact ⟨job, hid, hstores, hasManifest_of_mem hjob hsound.files (hkept.stored _ hmem),
      hasManifest_of_mem hjob hsound'.files (hkept'.stored _ hmem)⟩
  · intro x r hx
    exact (hsound.answers _ hx).refused
  · rintro ⟨w, hw, hexited⟩
    obtain ⟨phases, hphases, hholds⟩ := hsound.workers
    obtain ⟨phase, hphase, hdrains⟩ := hphases.exists_of_mem_left hw
    obtain rfl : phase = .drained := by
      cases w with
      | exited => exact hdrains
      | looping prog => simp [WorkerThread.hasExited] at hexited
    have hempty := (hholds .drained hphase).2
    have hfifo := hsound.fifo
    rw [hempty, List.append_nil] at hfifo
    exact ⟨hempty, hfifo⟩

/-- Rules that accept `example.com` with a policy snapshot. -/
def policyRules : DomainRulesSnapshot :=
  { Daemon.sampleRules with
    policies := [(1, ⟨"example.com".toList, true, true, true, true, true, false, .keep, false, 0,
      none, .unknown⟩)] }

/-- A message from its envelope to the reply. -/
def acknowledgedActions : List Daemon.Action :=
  [.connect policyRules "192.0.2.1".toList "smtp_1".toList,
   .line 0 (Json.ascii "MAIL FROM:<>".toList), .sessionStep 0 {},
   .line 0 (Json.ascii "RCPT TO:<u@example.com>".toList), .sessionStep 0 { freshId := ['1'] },
   .line 0 (Json.ascii "DATA".toList), .sessionStep 0 {}, .sessionStep 0 {},
   .line 0 (Json.ascii "Subject: hi".toList), .sessionStep 0 {},
   .line 0 (Json.ascii ".".toList), .sessionStep 0 {}, .sessionStep 0 {},
   .sessionStep 0 { freshId := ['2'] }, .sessionStep 0 {}, .sessionStep 0 {}, .sessionStep 0 {}]

/-- The worker pops it and fails to commit it until the retries are used up, and the daemon stops. -/
def drainActions : List Daemon.Action :=
  [.close, .stopRunning, .workerStep 0 {}, .workerStep 0 {}, .workerStep 0 {},
   .workerStep 0 {}, .workerStep 0 { commitFails := true },
   .workerStep 0 { write := .failedBefore }, .workerStep 0 { write := .failedAfter },
   .workerStep 0 {}, .workerStep 0 { commitFails := true },
   .workerStep 0 { write := .failedBefore }, .workerStep 0 {}, .workerStep 0 {},
   .workerStep 0 {}, .workerStep 0 {}, .workerStep 0 {}]

theorem durable_ack_conserved_sample : ∃ j later,
    (start Daemon.sampleConfig ()).run Daemon.sampleConfig acknowledgedActions = some j ∧
    j.run Daemon.sampleConfig drainActions = some later ∧
    j.answered.head?.map Prod.snd = some (queuedReply "msg_2".toList) ∧
    (∃ w, later.daemon.workers = [w] ∧ w.hasExited = true) ∧ j.Conserved later := by
  have hsome : (((start Daemon.sampleConfig ()).run Daemon.sampleConfig acknowledgedActions).bind
      fun j => (j.run Daemon.sampleConfig drainActions).map fun later =>
        (j.answered.head?.map Prod.snd, later.daemon.workers.map (·.hasExited))) =
      some (some (queuedReply "msg_2".toList), [true]) := by decide +kernel
  obtain ⟨j, hj, hrest⟩ := Option.bind_eq_some_iff.mp hsome
  obtain ⟨later, hlater, hfacts⟩ := Option.map_eq_some_iff.mp hrest
  obtain ⟨hreply, hworkers⟩ := Prod.mk.injEq .. ▸ hfacts
  obtain ⟨w, hw, hexited⟩ := List.map_eq_singleton_iff.mp hworkers
  exact ⟨j, later, hj, hlater, hreply, ⟨w, hw, hexited⟩,
    durable_ack_conserved Daemon.sampleConfig rfl () acknowledgedActions drainActions j later hj
      hlater⟩

end Journal

end RapidInbox

import RapidInbox.Ingest.QueueAccounting

/-!
# The queue's counters in every run of the daemon

`Daemon.Accounted` attaches to each thread what it owns of the queue and requires `Accounts` of the
whole.  Every action preserves it, and the counters the code maintains are read off from it.
-/

namespace RapidInbox

open Conc

/-- What a session thread owns: its method, or its destructor, follows the reservation protocol. -/
def SessionThread.Owns (t : SessionThread) (held : Option Nat) : Prop :=
  if t.closing then
    t.prog.Follows reservationProtocol (fun s _ held => s.reservation = held ∧ held = none) held
  else t.prog.Follows reservationProtocol SmtpSession.Settled held

/-- What a worker thread owns. -/
def WorkerThread.Owns : WorkerThread → List MailJob → Prop
  | .looping prog, batch =>
    prog.Follows batchProtocol (fun w _ batch => w.batch = batch ∧ batch = []) batch
  | .exited, batch => batch = []

/-- A thread that owns `held` has recorded it in its session. -/
theorem SessionThread.Owns.state {t : SessionThread} {held : Option Nat} (h : t.Owns held) :
    ∃ s, t.prog.state? = some s ∧ s.reservation = held := by
  unfold SessionThread.Owns at h
  cases hp : t.prog with
  | ret s r =>
    rw [hp] at h
    split at h
    · exact ⟨s, rfl, h.1⟩
    · exact ⟨s, rfl, h.1⟩
  | fault =>
    rw [hp] at h
    split at h <;> exact h.elim
  | call s op k =>
    rw [hp] at h
    split at h
    · exact ⟨s, rfl, h.1⟩
    · exact ⟨s, rfl, h.1⟩

/-- The precondition of the operation a session is about to perform. -/
theorem SessionThread.Owns.pending {t : SessionThread} {held : Option Nat} (h : t.Owns held)
    {op : SessionOp} (hop : t.prog.pending? = some op) :
    ∃ s, reservationProtocol.pre op s held := by
  unfold SessionThread.Owns at h
  cases hp : t.prog with
  | ret s r => simp [hp, Prog.pending?] at hop
  | fault => simp [hp, Prog.pending?] at hop
  | call s op' k =>
    rw [hp] at h hop
    obtain rfl : op' = op := by simpa [Prog.pending?] using hop
    split at h
    · exact ⟨s, h.2.1⟩
    · exact ⟨s, h.2.1⟩

/-- The jobs a worker has popped. -/
def WorkerThread.batch : WorkerThread → List MailJob
  | .looping prog => (prog.state?.map (·.batch)).getD []
  | .exited => []

theorem WorkerThread.Owns.batch_eq {t : WorkerThread} {batch : List MailJob} (h : t.Owns batch) :
    t.batch = batch := by
  cases t with
  | exited => exact h.symm
  | looping prog =>
    cases prog with
    | ret w c => exact h.1
    | fault => exact h.elim
    | call w op k => exact h.1

namespace Daemon

variable {D : Type} {C : DaemonConfig D} {d d' : Daemon D}

/-- The fields of every session that exists. -/
def sessionStates (d : Daemon D) : List SmtpSession := d.sessions.filterMap (·.prog.state?)

/-- The jobs that workers have popped and not completed. -/
def inFlightJobs (d : Daemon D) : List MailJob := d.workers.flatMap (·.batch)

/-- The counters account for what the threads own. -/
def Accounted (d : Daemon D) : Prop :=
  ∃ held batches, List.Forall₂ SessionThread.Owns d.sessions held ∧
    List.Forall₂ WorkerThread.Owns d.workers batches ∧ Accounts d.queue held batches ∧
    d.wrapped = false

theorem accounted_start (C : DaemonConfig D) (db : D) : (start C db).Accounted := by
  refine ⟨[], List.replicate C.ingestWorkerCount [], .nil, ?_, ?_, rfl⟩
  · unfold start
    generalize C.ingestWorkerCount = n
    induction n with
    | zero => exact .nil
    | succ n ih => exact .cons (Worker.wp_writerLoop C.worker rfl) ih
  · refine ⟨rfl, rfl, ?_, ?_, ?_, ?_⟩
    · simp [start, inFlightBytes]
    · simp [start, inFlightCount]
    · simp [start]
    · simp [start]

/-- A session's operation, performed within the protocol, keeps the accounts. -/
theorem performSession_accounts (env : Env) {op : SessionOp} {s : SmtpSession} {g : Option Nat}
    {before after : List (Option Nat)} {batches : List (List MailJob)}
    (h : Accounts d.queue (before ++ g :: after) batches) (hw : d.wrapped = false)
    (hpre : reservationProtocol.pre op s g) :
    ∃ g', reservationProtocol.post op g (d.performSession env op).1 g' ∧
      Accounts (d.performSession env op).2.queue (before ++ g' :: after) batches ∧
      (d.performSession env op).2.wrapped = false ∧
      (d.performSession env op).2.workers = d.workers := by
  cases op with
  | maintenanceActive => exact ⟨g, rfl, h, hw, rfl⟩
  | makePrefixedId idPrefix => exact ⟨g, rfl, h, hw, rfl⟩
  | utcNow => exact ⟨g, rfl, h, hw, rfl⟩
  | snapshotRulesIfChanged known => exact ⟨g, rfl, h, hw, rfl⟩
  | countRecipientRejection => exact ⟨g, rfl, h, hw, rfl⟩
  | writeFileAtomic path content =>
    cases hout : env.write <;>
      exact ⟨g, rfl, by simpa [performSession, writeFile, hout] using h,
        by simpa [performSession, writeFile, hout] using hw,
        by simp [performSession, writeFile, hout]⟩
  | tryReserve bytes =>
    obtain rfl : g = none := hpre
    obtain ⟨granted, q', hq, hacc⟩ := MailQueue.tryReserve_accounts h bytes
    refine ⟨bif granted then some bytes else none, ?_, ?_, ?_, ?_⟩
    · simp [performSession, hq, withQueue, reservationProtocol]
    · simpa [performSession, hq, withQueue] using hacc
    · simpa [performSession, hq, withQueue] using hw
    · simp [performSession, hq, withQueue]
  | tryGrowReservation minimum preferred =>
    obtain ⟨n, rfl⟩ := Option.isSome_iff_exists.mp hpre
    obtain ⟨added, q', hq, hacc⟩ := MailQueue.tryGrowReservation_accounts h minimum preferred
    refine ⟨if added = 0 then some n else some (addSize n added), ?_, ?_, ?_, ?_⟩
    · simp [performSession, hq, withQueue, reservationProtocol]
    · simpa [performSession, hq, withQueue] using hacc
    · simpa [performSession, hq, withQueue] using hw
    · simp [performSession, hq, withQueue]
  | pushReserved job reserved =>
    obtain rfl : g = some reserved := hpre
    obtain ⟨taken, q', hq, hacc, -⟩ := MailQueue.pushReserved_accounts h job
    refine ⟨none, rfl, ?_, ?_, ?_⟩
    · cases taken <;> simpa [performSession, hq, withQueue] using hacc
    · cases taken <;> simpa [performSession, hq, withQueue] using hw
    · cases taken <;> simp [performSession, hq, withQueue]
  | cancelReservation reserved =>
    obtain rfl : g = some reserved := hpre
    obtain ⟨q', hq, hacc⟩ := MailQueue.cancelReservation_accounts h
    refine ⟨none, rfl, ?_, ?_, ?_⟩
    · simpa [performSession, hq, withQueue, Except.map] using hacc
    · simpa [performSession, hq, withQueue, Except.map] using hw
    · simp [performSession, hq, withQueue, Except.map]

/-- A worker's operation, performed within the protocol, keeps the accounts. -/
theorem performWorker_accounts (env : Env) {op : WorkerOp} {w : WorkerState} {b : List MailJob}
    {held : List (Option Nat)} {before after : List (List MailJob)}
    (h : Accounts d.queue held (before ++ b :: after)) (hw : d.wrapped = false)
    (hpre : batchProtocol.pre op w b) :
    ∃ b', batchProtocol.post op b (performWorker C d env op).1 b' ∧
      Accounts (performWorker C d env op).2.queue held (before ++ b' :: after) ∧
      (performWorker C d env op).2.wrapped = false ∧
      (performWorker C d env op).2.sessions = d.sessions := by
  cases op with
  | loadRunning => exact ⟨b, rfl, h, hw, rfl⟩
  | queueSize => exact ⟨b, rfl, h, hw, rfl⟩
  | popBatch maxItems =>
    obtain rfl : b = [] := hpre
    exact ⟨_, rfl, MailQueue.popBatch_accounts h maxItems, hw, rfl⟩
  | writeFileAtomic path content =>
    cases hout : env.write <;>
      exact ⟨b, rfl, by simpa [performWorker, writeFile, hout] using h,
        by simpa [performWorker, writeFile, hout] using hw,
        by simp [performWorker, writeFile, hout]⟩
  | writeSqliteRecords records =>
    simp only [performWorker]
    split
    · exact ⟨b, rfl, h, hw, rfl⟩
    · split
      · exact ⟨b, rfl, h, hw, rfl⟩
      · exact ⟨b, rfl, h, hw, rfl⟩
  | completeBatch count bytes =>
    obtain ⟨rfl, rfl⟩ : count = b.length ∧ bytes = batchBytes b := hpre
    obtain ⟨q', hq, hacc⟩ := MailQueue.completeBatch_accounts h
    refine ⟨[], rfl, ?_, ?_, ?_⟩
    · simpa [performWorker, hq, withQueue, Except.map] using hacc
    · simpa [performWorker, hq, withQueue, Except.map] using hw
    · simp [performWorker, hq, withQueue, Except.map]

theorem accounted_startMethod {i : Nat} {m : SessionM (Option Reply)} (h : d.Accounted)
    (hm : ∀ s held, s.reservation = held → s.AtRest →
      Act.wp reservationProtocol m SmtpSession.Settled s held)
    (hstep : d.startMethod i m = some d') : d'.Accounted := by
  obtain ⟨held, batches, hs, hb, hacc, hw⟩ := h
  unfold startMethod at hstep
  split at hstep
  · rename_i s r hget
    cases hstep
    obtain ⟨before, after, heq, hset, -⟩ := List.focus_getElem? hget
    rw [heq] at hs
    obtain ⟨gBefore, g, gAfter, rfl, hsb, howns, hsa⟩ := hs.focus
    have hsettled : s.Settled r g := howns
    refine ⟨gBefore ++ g :: gAfter, batches, ?_, hb, hacc, hw⟩
    rw [hset]
    exact hsb.refocus hsa (hm s g hsettled.1 hsettled.2)
  · cases hstep

/-- The step lemma: whatever happens next, the counters still account for what the threads own. -/
theorem accounted_step {a : Action} (h : d.Accounted) (hstep : d.step C a = some d') :
    d'.Accounted := by
  cases a with
  | connect rules remoteIp sessionId =>
    obtain ⟨held, batches, hs, hb, hacc, hw⟩ := h
    cases hstep
    refine ⟨held ++ [none], batches, ?_, hb, ?_, hw⟩
    · have hnew : SessionThread.Owns ⟨.ret (C.newSession rules remoteIp sessionId) none, false⟩
          none := ⟨rfl, fun _ => rfl⟩
      have := hs.refocus .nil hnew
      simpa using this
    · have hcount : heldCount (held ++ [none]) = heldCount held := by
        simp [heldCount]
      have hbytes : heldBytes (held ++ [none]) = heldBytes held := by
        simp [heldBytes]
      exact ⟨hcount ▸ hacc.reservedMessages, hbytes ▸ hacc.reservedBytes, hacc.queueBytes,
        hacc.inFlight, hacc.messages_le, hacc.bytes_le⟩
  | line i bytes =>
    exact accounted_startMethod h
      (fun s held hagree hrest => SmtpSession.rwp_handleLine C.platform bytes hagree hrest) hstep
  | overlongLine i =>
    exact accounted_startMethod h
      (fun s held hagree hrest => SmtpSession.rwp_rejectOverlongDataLine hagree hrest) hstep
  | sessionStep i env =>
    obtain ⟨held, batches, hs, hb, hacc, hw⟩ := h
    simp only [step] at hstep
    split at hstep
    · rename_i s op k closing hget
      cases hstep
      obtain ⟨before, after, heq, hset, -⟩ := List.focus_getElem? hget
      rw [heq] at hs
      obtain ⟨gBefore, g, gAfter, rfl, hsb, howns, hsa⟩ := hs.focus
      have hpre : reservationProtocol.pre op s g := by
        cases closing <;> exact howns.2.1
      obtain ⟨g', hpost, hacc', hw', hworkers⟩ :=
        performSession_accounts env hacc hw hpre
      refine ⟨gBefore ++ g' :: gAfter, batches, ?_, ?_, hacc', hw'⟩
      · simp only [hset]
        refine hsb.refocus hsa ?_
        cases closing <;> exact howns.2.2 _ g' hpost
      · simpa only [hworkers] using hb
    · cases hstep
  | destroy i =>
    obtain ⟨held, batches, hs, hb, hacc, hw⟩ := h
    simp only [step] at hstep
    split at hstep
    · rename_i prog hget
      obtain ⟨s, hstate, rfl⟩ := Option.map_eq_some_iff.mp hstep
      obtain ⟨before, after, heq, hset, -⟩ := List.focus_getElem? hget
      rw [heq] at hs
      obtain ⟨gBefore, g, gAfter, rfl, hsb, howns, hsa⟩ := hs.focus
      obtain ⟨s', hs', hres⟩ := howns.state
      obtain rfl : s' = s := by simpa [hstate] using hs'.symm
      refine ⟨gBefore ++ g :: gAfter, batches, ?_, hb, hacc, hw⟩
      rw [hset]
      exact hsb.refocus hsa (SmtpSession.rwp_destroy hres)
    · cases hstep
  | reap i =>
    obtain ⟨held, batches, hs, hb, hacc, hw⟩ := h
    simp only [step] at hstep
    split at hstep
    · rename_i s r hget
      cases hstep
      obtain ⟨before, after, heq, -, herase⟩ := List.focus_getElem? hget
      rw [heq] at hs
      obtain ⟨gBefore, g, gAfter, rfl, hsb, howns, hsa⟩ := hs.focus
      obtain rfl : g = none := howns.2
      refine ⟨gBefore ++ gAfter, batches, ?_, hb, ?_, hw⟩
      · rw [herase]
        exact List.rel_append hsb hsa
      · have hcount : heldCount (gBefore ++ none :: gAfter) = heldCount (gBefore ++ gAfter) := by
          simp [heldCount]
        have hbytes : heldBytes (gBefore ++ none :: gAfter) = heldBytes (gBefore ++ gAfter) := by
          simp [heldBytes]
        exact ⟨hcount ▸ hacc.reservedMessages, hbytes ▸ hacc.reservedBytes, hacc.queueBytes,
          hacc.inFlight, hacc.messages_le, hacc.bytes_le⟩
    · cases hstep
  | workerStep i env =>
    obtain ⟨held, batches, hs, hb, hacc, hw⟩ := h
    simp only [step] at hstep
    split at hstep
    · rename_i w op k hget
      cases hstep
      obtain ⟨before, after, heq, hset, -⟩ := List.focus_getElem? hget
      rw [heq] at hb
      obtain ⟨bBefore, b, bAfter, rfl, hbb, howns, hba⟩ := hb.focus
      obtain ⟨b', hpost, hacc', hw', hsessions⟩ :=
        performWorker_accounts (C := C) env hacc hw howns.2.1
      refine ⟨held, bBefore ++ b' :: bAfter, ?_, ?_, hacc', hw'⟩
      · simpa only [hsessions] using hs
      · simp only [hset]
        exact hbb.refocus hba (howns.2.2 _ b' hpost)
    · rename_i w continues hget
      cases hstep
      obtain ⟨before, after, heq, hset, -⟩ := List.focus_getElem? hget
      rw [heq] at hb
      obtain ⟨bBefore, b, bAfter, rfl, hbb, howns, hba⟩ := hb.focus
      obtain ⟨hbatch, rfl⟩ : w.batch = b ∧ b = [] := howns
      refine ⟨held, bBefore ++ [] :: bAfter, hs, ?_, hacc, hw⟩
      rw [hset]
      refine hbb.refocus hba ?_
      cases continues with
      | true => exact Worker.wp_writerLoop C.worker hbatch
      | false => rfl
    · cases hstep
  | setReservationsPaused paused =>
    obtain ⟨held, batches, hs, hb, hacc, hw⟩ := h
    cases hstep
    exact ⟨held, batches, hs, hb, ⟨hacc.1, hacc.2, hacc.3, hacc.4, hacc.5, hacc.6⟩, hw⟩
  | close =>
    obtain ⟨held, batches, hs, hb, hacc, hw⟩ := h
    cases hstep
    exact ⟨held, batches, hs, hb, ⟨hacc.1, hacc.2, hacc.3, hacc.4, hacc.5, hacc.6⟩, hw⟩
  | stopRunning =>
    obtain ⟨held, batches, hs, hb, hacc, hw⟩ := h
    simp only [step] at hstep
    split at hstep
    · cases hstep
      exact ⟨held, batches, hs, hb, hacc, hw⟩
    · cases hstep

/-- The run lemma. -/
theorem accounted_run {as : List Action} (h : d.Accounted) (hrun : d.run C as = some d') :
    d'.Accounted :=
  Transition.run_invariant (fun _ _ _ => accounted_step) h hrun

/-- What the counters of the queue mean at one moment of a run. -/
structure QueueCountersExact (d : Daemon D) : Prop where
  reserved_messages :
    d.queue.reservedMessages = d.sessionStates.countP (·.queueReservationActive)
  reserved_bytes :
    d.queue.reservedBytes =
      ((d.sessionStates.filter (·.queueReservationActive)).map (·.queueReservationBytes)).sum
  queue_bytes : d.queue.queueBytes = rawBytes d.queue.queue + rawBytes d.inFlightJobs
  in_flight : d.queue.inFlightMessages = d.inFlightJobs.length
  messages_le :
    d.queue.queue.length + d.inFlightJobs.length + d.queue.reservedMessages ≤
      d.queue.capacityMessages
  bytes_le : d.queue.queueBytes + d.queue.reservedBytes ≤ d.queue.capacityBytes
  /-- No `size_t` subtraction has wrapped, in the queue or in a session. -/
  no_wrap : d.wrapped = false ∧ ∀ t ∈ d.sessions, t.prog.state?.isSome
  push_found : ∀ t ∈ d.sessions, ∀ job reserved,
    t.prog.pending? = some (.pushReserved job reserved) → ¬ d.queue.ReservationMissing reserved
  cancel_found : ∀ t ∈ d.sessions, ∀ reserved,
    t.prog.pending? = some (.cancelReservation reserved) → ¬ d.queue.ReservationMissing reserved
  complete_found : ∀ prog, .looping prog ∈ d.workers → ∀ count bytes,
    prog.pending? = some (.completeBatch count bytes) → ¬ d.queue.BatchMissing count bytes

/-- The sessions' own fields, read off from what the threads own. -/
theorem sessionStates_counts {ts : List SessionThread} {held : List (Option Nat)}
    (h : List.Forall₂ SessionThread.Owns ts held) :
    (ts.filterMap (·.prog.state?)).countP (·.queueReservationActive) = heldCount held ∧
      (((ts.filterMap (·.prog.state?)).filter (·.queueReservationActive)).map
        (·.queueReservationBytes)).sum = heldBytes held := by
  induction h with
  | nil => exact ⟨rfl, rfl⟩
  | cons howns _ ih =>
    obtain ⟨s, hs, rfl⟩ := howns.state
    cases hb : s.queueReservationActive with
    | true =>
      rw [SmtpSession.reservation_of_active hb]
      simp [hs, hb, heldCount, heldBytes] at ih ⊢
      omega
    | false =>
      rw [SmtpSession.reservation_of_inactive hb]
      simp [hs, hb, heldCount, heldBytes] at ih ⊢
      omega

theorem inFlightJobs_counts {ts : List WorkerThread} {batches : List (List MailJob)}
    (h : List.Forall₂ WorkerThread.Owns ts batches) :
    (ts.flatMap (·.batch)).length = inFlightCount batches ∧
      rawBytes (ts.flatMap (·.batch)) = inFlightBytes batches := by
  induction h with
  | nil => exact ⟨rfl, rfl⟩
  | cons howns _ ih =>
    rw [List.flatMap_cons, howns.batch_eq]
    simp [inFlightCount, inFlightBytes] at ih ⊢
    omega

/-- A reservation that some session holds is found by the queue's test. -/
theorem not_reservationMissing_of_held {held : List (Option Nat)} {batches : List (List MailJob)}
    {n : Nat} (h : Accounts d.queue held batches) (hn : some n ∈ held) :
    ¬ d.queue.ReservationMissing n := by
  obtain ⟨before, after, rfl⟩ := List.append_of_mem hn
  exact MailQueue.not_reservationMissing h

theorem Accounted.countersExact (h : d.Accounted) : d.QueueCountersExact := by
  obtain ⟨held, batches, hs, hb, hacc, hw⟩ := h
  obtain ⟨hcount, hbytes⟩ := sessionStates_counts hs
  obtain ⟨hflight, hraw⟩ := inFlightJobs_counts hb
  have hin : d.queue.inFlightMessages = d.inFlightJobs.length :=
    hacc.inFlight.trans hflight.symm
  refine
    { reserved_messages := hacc.reservedMessages.trans hcount.symm
      reserved_bytes := hacc.reservedBytes.trans hbytes.symm
      queue_bytes := hacc.queueBytes.trans (congrArg (rawBytes d.queue.queue + ·) hraw.symm)
      in_flight := hin
      messages_le := hin ▸ hacc.messages_le
      bytes_le := hacc.bytes_le
      no_wrap := ⟨hw, ?_⟩
      push_found := ?_
      cancel_found := ?_
      complete_found := ?_ }
  · intro t ht
    obtain ⟨g, -, howns⟩ := hs.exists_of_mem_left ht
    obtain ⟨s, hstate, -⟩ := howns.state
    simp [hstate]
  · intro t ht job reserved hop
    obtain ⟨g, hg, howns⟩ := hs.exists_of_mem_left ht
    obtain ⟨_, hpre⟩ := howns.pending hop
    exact not_reservationMissing_of_held hacc (hpre ▸ hg)
  · intro t ht reserved hop
    obtain ⟨g, hg, howns⟩ := hs.exists_of_mem_left ht
    obtain ⟨_, hpre⟩ := howns.pending hop
    exact not_reservationMissing_of_held hacc (hpre ▸ hg)
  · intro prog hp count bytes hop
    obtain ⟨b, hmem, howns⟩ := hb.exists_of_mem_left hp
    cases prog with
    | ret w c => simp [Prog.pending?] at hop
    | fault => simp [Prog.pending?] at hop
    | call w op k =>
      obtain rfl : op = .completeBatch count bytes := by simpa [Prog.pending?] using hop
      obtain ⟨rfl, rfl⟩ : count = b.length ∧ bytes = batchBytes b := howns.2.1
      obtain ⟨before, after, rfl⟩ := List.append_of_mem hmem
      obtain ⟨heq, hfound⟩ := MailQueue.not_batchMissing hacc
      rwa [heq]

/-- In every state of every run of the daemon the queue's counters are exact: reserved messages and
    bytes are those the sessions have recorded, queued bytes are those of the jobs queued or in
    flight, both capacities are kept, no `size_t` subtraction wraps, and the early returns for
    inconsistent counts are never taken. -/
theorem queue_counters_exact (C : DaemonConfig D) (db : D) (as : List Action) (d : Daemon D)
    (hrun : (start C db).run C as = some d) : d.QueueCountersExact :=
  (accounted_run (accounted_start C db) hrun).countersExact

/-- A daemon with one writer thread and a database that accepts everything. -/
def sampleConfig : DaemonConfig Unit where
  platform := ⟨.asciiOnly, fun _ => []⟩
  worker := ⟨fun _ => [], fun _ => .failed [], (fun _ _ h => nomatch h), 250, 3⟩
  maxRecipients := 100
  maxMessageSizeBytes := 1000
  durableAck := true
  reservationChunkBytes := 64
  chunk_lt := by decide
  ingestQueueMaxMessages := 10
  ingestQueueMaxBytes := 4096
  messages_lt := by decide
  bytes_lt := by decide
  ingestWorkerCount := 1
  writeSqliteRecords := fun _ _ => some ()

/-- Rules that accept `example.com`. -/
def sampleRules : DomainRulesSnapshot :=
  ⟨⟨[⟨1, "example.com".toList, true, true, .keep, false⟩]⟩, [], 1⟩

/-- A session up to its first line of data: `MAIL` refreshes the rules, `RCPT` draws a delivery id,
    `DATA` reserves, and the line grows the reservation. -/
def sampleActions : List Action :=
  [.connect sampleRules "192.0.2.1".toList "smtp_1".toList,
   .line 0 (Json.ascii "MAIL FROM:<>".toList), .sessionStep 0 {},
   .line 0 (Json.ascii "RCPT TO:<u@example.com>".toList), .sessionStep 0 { freshId := ['1'] },
   .line 0 (Json.ascii "DATA".toList), .sessionStep 0 {}, .sessionStep 0 {},
   .line 0 (Json.ascii "Subject: hi".toList), .sessionStep 0 {}]

theorem queue_counters_exact_sample : ∃ d, (start sampleConfig ()).run sampleConfig sampleActions =
    some d ∧ d.queue.reservedMessages = 1 ∧ d.queue.reservedBytes = 64 ∧ d.QueueCountersExact := by
  have hsome : ((start sampleConfig ()).run sampleConfig sampleActions).isSome = true := by decide
  obtain ⟨d, hd⟩ := Option.isSome_iff_exists.mp hsome
  have hres : ((start sampleConfig ()).run sampleConfig sampleActions).map
      (fun d => (d.queue.reservedMessages, d.queue.reservedBytes)) = some (1, 64) := by decide
  rw [hd] at hres
  refine ⟨d, hd, ?_, ?_, queue_counters_exact sampleConfig () sampleActions d hd⟩
  · simpa using congrArg (Option.map Prod.fst) hres
  · simpa using congrArg (Option.map Prod.snd) hres

end Daemon

end RapidInbox

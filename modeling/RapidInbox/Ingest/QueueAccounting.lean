import RapidInbox.Lib.Focus
import RapidInbox.Ingest.Reservation
import RapidInbox.Ingest.Daemon

/-!
# The queue's counters

The queue keeps four counters for jobs and reservations that other threads own.  `Accounts` says
what they count: `held` lists what each session has reserved and `batches` what each worker has
popped.  Each queue operation keeps it for the owner that performs it, sessions and workers follow
the protocols that make their operations legal, and so it holds in every state of every run.
-/

namespace RapidInbox

open Conc

/-- Bytes a session has reserved. -/
def heldBytes (held : List (Option Nat)) : Nat := (held.map (·.getD 0)).sum

/-- Number of sessions with a reservation. -/
def heldCount (held : List (Option Nat)) : Nat := held.countP Option.isSome

@[simp] theorem heldBytes_focus (before after : List (Option Nat)) (h : Option Nat) :
    heldBytes (before ++ h :: after) = heldBytes before + (h.getD 0 + heldBytes after) := by
  simp [heldBytes]

@[simp] theorem heldCount_focus (before after : List (Option Nat)) (h : Option Nat) :
    heldCount (before ++ h :: after) =
      heldCount before + ((if h.isSome then 1 else 0) + heldCount after) := by
  simp [heldCount, List.countP_append, List.countP_cons, Nat.add_comm]

/-- Jobs popped and not completed. -/
def inFlightCount (batches : List (List MailJob)) : Nat := (batches.map List.length).sum

/-- Their raw bytes. -/
def inFlightBytes (batches : List (List MailJob)) : Nat := (batches.map rawBytes).sum

@[simp] theorem inFlightCount_focus (before after : List (List MailJob)) (b : List MailJob) :
    inFlightCount (before ++ b :: after) =
      inFlightCount before + (b.length + inFlightCount after) := by
  simp [inFlightCount]

@[simp] theorem inFlightBytes_focus (before after : List (List MailJob)) (b : List MailJob) :
    inFlightBytes (before ++ b :: after) =
      inFlightBytes before + (rawBytes b + inFlightBytes after) := by
  simp [inFlightBytes]

/-- The counters are the reservations held, the jobs queued and the jobs in flight, and both sums
    stay within the capacities. -/
structure Accounts (q : MailQueue) (held : List (Option Nat)) (batches : List (List MailJob)) :
    Prop where
  reservedMessages : q.reservedMessages = heldCount held
  reservedBytes : q.reservedBytes = heldBytes held
  queueBytes : q.queueBytes = rawBytes q.queue + inFlightBytes batches
  inFlight : q.inFlightMessages = inFlightCount batches
  messages_le : q.queue.length + q.inFlightMessages + q.reservedMessages ≤ q.capacityMessages
  bytes_le : q.queueBytes + q.reservedBytes ≤ q.capacityBytes

namespace MailQueue

variable {q : MailQueue} {before after : List (Option Nat)} {batches : List (List MailJob)}

/-- Within the capacities the capacity test is computed without wrapping. -/
theorem hasCapacityUnlocked_eq {held : List (Option Nat)} (h : Accounts q held batches)
    (bytes : Nat) :
    q.hasCapacityUnlocked bytes = .ok (decide (q.reservationsPaused = false ∧
      q.queue.length + q.reservedMessages + q.inFlightMessages < q.capacityMessages ∧
      q.queueBytes + q.reservedBytes + bytes ≤ q.capacityBytes)) := by
  have hm := h.messages_le
  have hlt := q.messages_lt
  have hsum : addSize q.queue.length q.reservedMessages = q.queue.length + q.reservedMessages :=
    addSize_of_lt (by omega)
  unfold hasCapacityUnlocked
  rw [hsum, addSize_of_lt (by omega)]
  by_cases hp : q.reservationsPaused = true
  · rw [decide_eq_false (by rintro ⟨hp', _⟩; simp [hp] at hp')]
    simp [hp, pure, Except.pure]
  · by_cases hc : q.capacityMessages ≤ q.queue.length + q.reservedMessages + q.inFlightMessages
    · rw [decide_eq_false (by rintro ⟨_, hc', _⟩; omega)]
      simp [hp, hc, pure, Except.pure]
    · by_cases hb : q.capacityBytes < bytes
      · rw [decide_eq_false (by rintro ⟨_, _, hb'⟩; omega)]
        simp [hp, hc, hb, pure, Except.pure]
      · rw [subSize_ok (by omega)]
        by_cases hr : q.capacityBytes - bytes < q.queueBytes
        · rw [decide_eq_false (by rintro ⟨_, _, hb'⟩; omega)]
          simp [hp, hc, hb, hr, bind, Except.bind, pure, Except.pure]
        · have hiff : q.reservedBytes ≤ q.capacityBytes - bytes - q.queueBytes ↔
              q.reservationsPaused = false ∧
              q.queue.length + q.reservedMessages + q.inFlightMessages < q.capacityMessages ∧
              q.queueBytes + q.reservedBytes + bytes ≤ q.capacityBytes := by
            constructor
            · intro hle
              exact ⟨by simpa using hp, by omega, by omega⟩
            · rintro ⟨_, _, hle⟩
              omega
          simp only [hp, hc, hb, hr, if_false, bind, Except.bind, subSize_ok (Nat.not_lt.mp hr),
            pure, Except.pure, Bool.false_eq_true, decide_eq_decide.mpr hiff]

/-- A session without a reservation may ask for one. -/
theorem tryReserve_accounts (h : Accounts q (before ++ none :: after) batches) (bytes : Nat) :
    ∃ granted q', q.tryReserve bytes = .ok (granted, q') ∧
      Accounts q' (before ++ (bif granted then some bytes else none) :: after) batches := by
  unfold tryReserve
  by_cases hclosed : q.closed = true
  · exact ⟨false, q, by simp [hclosed, pure, Except.pure], h⟩
  · rw [hasCapacityUnlocked_eq h]
    by_cases hcap : q.reservationsPaused = false ∧
        q.queue.length + q.reservedMessages + q.inFlightMessages < q.capacityMessages ∧
        q.queueBytes + q.reservedBytes + bytes ≤ q.capacityBytes
    · have ⟨_, hm, hb⟩ := hcap
      have hmlt := q.messages_lt
      have hblt := q.bytes_lt
      refine ⟨true, { q with
        reservedMessages := q.reservedMessages + 1
        reservedBytes := q.reservedBytes + bytes }, ?_, ?_⟩
      · simp [hclosed, hcap, bind, Except.bind, pure, Except.pure,
          addSize_of_lt (show q.reservedMessages + 1 < sizeMod by omega),
          addSize_of_lt (show q.reservedBytes + bytes < sizeMod by omega)]
      · have hrm := h.reservedMessages
        have hrb := h.reservedBytes
        refine ⟨?_, ?_, h.queueBytes, h.inFlight, ?_, ?_⟩
        · simp at hrm ⊢
          omega
        · simp at hrb ⊢
          omega
        · simp only
          omega
        · simp only
          omega
    · exact ⟨false, q, by simp [hclosed, hcap, bind, Except.bind, pure, Except.pure], h⟩

/-- A held reservation may grow by what is free. -/
theorem tryGrowReservation_accounts {n : Nat} (h : Accounts q (before ++ some n :: after) batches)
    (minimum preferred : Nat) :
    ∃ added q', q.tryGrowReservation minimum preferred = .ok (added, q') ∧
      Accounts q' (before ++ (if added = 0 then some n else some (addSize n added)) :: after)
        batches := by
  have hb := h.bytes_le
  have hblt := q.bytes_lt
  have hrb := h.reservedBytes
  unfold tryGrowReservation
  by_cases hargs : minimum = 0 ∨ preferred < minimum
  · exact ⟨0, q, by simp [hargs, pure, Except.pure], by simpa using h⟩
  · by_cases hguard : q.closed = true ∨ q.reservedMessages = 0 ∨ q.capacityBytes < q.queueBytes
    · exact ⟨0, q, by simp [hargs, hguard, pure, Except.pure], by simpa using h⟩
    · rw [subSize_ok (by omega)]
      have hroom : ¬ q.capacityBytes - q.queueBytes < q.reservedBytes := by omega
      by_cases havail : q.capacityBytes - q.queueBytes - q.reservedBytes < minimum
      · refine ⟨0, q, ?_, by simpa using h⟩
        simp [hargs, hguard, hroom, havail, bind, Except.bind, pure, Except.pure,
          subSize_ok (Nat.not_lt.mp hroom)]
      · refine ⟨min preferred (q.capacityBytes - q.queueBytes - q.reservedBytes), { q with
          reservedBytes := q.reservedBytes +
            min preferred (q.capacityBytes - q.queueBytes - q.reservedBytes) }, ?_, ?_⟩
        · simp [hargs, hguard, hroom, havail, bind, Except.bind, pure, Except.pure,
            subSize_ok (Nat.not_lt.mp hroom), addSize_of_lt (show q.reservedBytes +
              min preferred (q.capacityBytes - q.queueBytes - q.reservedBytes) < sizeMod by omega)]
        · have hnz : min preferred (q.capacityBytes - q.queueBytes - q.reservedBytes) ≠ 0 := by
            omega
          have hrm := h.reservedMessages
          simp only [heldBytes_focus, Option.getD_some] at hrb
          rw [if_neg hnz, addSize_of_lt (by omega)]
          refine ⟨by simpa using hrm, ?_, h.queueBytes, h.inFlight, h.messages_le, ?_⟩
          · simp only [heldBytes_focus, Option.getD_some]
            omega
          · simp only
            omega

/-- A held reservation is found by the test of `push_reserved` and `cancel_reservation`. -/
theorem not_reservationMissing {n : Nat} (h : Accounts q (before ++ some n :: after) batches) :
    ¬ q.ReservationMissing n := by
  have hrm := h.reservedMessages
  have hrb := h.reservedBytes
  simp at hrm hrb
  rintro (hz | hlt) <;> omega

/-- Taking a held reservation off the counters. -/
theorem dropReservation_accounts {n : Nat} (h : Accounts q (before ++ some n :: after) batches) :
    Accounts { q with
      reservedMessages := q.reservedMessages - 1
      reservedBytes := q.reservedBytes - n } (before ++ none :: after) batches := by
  have hrm := h.reservedMessages
  have hrb := h.reservedBytes
  have hm := h.messages_le
  have hb := h.bytes_le
  simp at hrm hrb
  refine ⟨?_, ?_, h.queueBytes, h.inFlight, ?_, ?_⟩
  · simp
    omega
  · simp
    omega
  · simp only
    omega
  · simp only
    omega

theorem cancelReservation_accounts {n : Nat}
    (h : Accounts q (before ++ some n :: after) batches) :
    ∃ q', q.cancelReservation n = .ok q' ∧ Accounts q' (before ++ none :: after) batches := by
  have hfound := not_reservationMissing h
  have hle : 1 ≤ q.reservedMessages ∧ n ≤ q.reservedBytes := by
    simp only [ReservationMissing, not_or] at hfound
    omega
  refine ⟨_, ?_, dropReservation_accounts h⟩
  unfold cancelReservation
  simp [hfound, subSize_ok hle.1, subSize_ok hle.2, bind, Except.bind, pure, Except.pure]

/-- A push gives up the reservation; the job is queued when the queue is open and it fits. -/
theorem pushReserved_accounts {n : Nat} (h : Accounts q (before ++ some n :: after) batches)
    (job : MailJob) :
    ∃ taken q', q.pushReserved job n = .ok (taken, q') ∧
      Accounts q' (before ++ none :: after) batches ∧
      q'.queue = (bif taken then q.queue ++ [job] else q.queue) ∧
      (taken = true → q.closed = false) ∧ q'.closed = q.closed := by
  have hfound := not_reservationMissing h
  have hle : 1 ≤ q.reservedMessages ∧ n ≤ q.reservedBytes := by
    simp only [ReservationMissing, not_or] at hfound
    omega
  have hdrop := dropReservation_accounts h
  unfold pushReserved
  by_cases hrefuse : q.closed = true ∨ n < job.rawContent.length
  · refine ⟨false, _, ?_, hdrop, rfl, by simp, rfl⟩
    simp [hfound, hrefuse, subSize_ok hle.1, subSize_ok hle.2, bind, Except.bind, pure, Except.pure]
  · have hb := h.bytes_le
    have hblt := q.bytes_lt
    have hm := h.messages_le
    refine ⟨true, { q with
      reservedMessages := q.reservedMessages - 1
      reservedBytes := q.reservedBytes - n
      queueBytes := q.queueBytes + job.rawContent.length
      queue := q.queue ++ [job] }, ?_, ?_, rfl, ?_, rfl⟩
    · simp [hfound, hrefuse, subSize_ok hle.1, subSize_ok hle.2, bind, Except.bind, pure,
        Except.pure, addSize_of_lt (show q.queueBytes + job.rawContent.length < sizeMod by omega)]
    · have hq := h.queueBytes
      refine ⟨hdrop.reservedMessages, hdrop.reservedBytes, ?_, h.inFlight, ?_, ?_⟩
      · simp
        omega
      · simp
        omega
      · simp only
        omega
    · intro _
      simpa using fun hc => hrefuse (.inl hc)

variable {held : List (Option Nat)} {bBefore bAfter : List (List MailJob)}

/-- A worker without a batch may pop one. -/
theorem popBatch_accounts (h : Accounts q held (bBefore ++ [] :: bAfter)) (maxItems : Nat) :
    Accounts (q.popBatch maxItems).2 held
      (bBefore ++ (q.popBatch maxItems).1 :: bAfter) := by
  have hm := h.messages_le
  have hmlt := q.messages_lt
  have hlen : (q.queue.take maxItems).length + (q.queue.drop maxItems).length = q.queue.length := by
    rw [← List.length_append, List.take_append_drop]
  have hraw : rawBytes (q.queue.take maxItems) + rawBytes (q.queue.drop maxItems) =
      rawBytes q.queue := by
    rw [← rawBytes_append, List.take_append_drop]
  have hf := h.inFlight
  have hq := h.queueBytes
  simp only [inFlightCount_focus, inFlightBytes_focus, rawBytes_nil, List.length_nil] at hf hq
  have hadd : addSize q.inFlightMessages (q.queue.take maxItems).length =
      q.inFlightMessages + (q.queue.take maxItems).length := addSize_of_lt (by omega)
  refine ⟨h.reservedMessages, h.reservedBytes, ?_, ?_, ?_, h.bytes_le⟩
  · simp only [popBatch, inFlightBytes_focus]
    omega
  · simp only [popBatch, hadd, inFlightCount_focus]
    omega
  · simp only [popBatch, hadd]
    omega

/-- A worker's batch is found by the test of `complete_batch`. -/
theorem not_batchMissing {b : List MailJob} (h : Accounts q held (bBefore ++ b :: bAfter)) :
    batchBytes b = rawBytes b ∧ ¬ q.BatchMissing b.length (rawBytes b) := by
  have hf := h.inFlight
  have hq := h.queueBytes
  have hb := h.bytes_le
  have hblt := q.bytes_lt
  simp only [inFlightCount_focus, inFlightBytes_focus] at hf hq
  refine ⟨batchBytes_eq (by omega), ?_⟩
  rintro (hlt | hlt) <;> omega

theorem completeBatch_accounts {b : List MailJob}
    (h : Accounts q held (bBefore ++ b :: bAfter)) :
    ∃ q', q.completeBatch b.length (batchBytes b) = .ok q' ∧
      Accounts q' held (bBefore ++ [] :: bAfter) := by
  obtain ⟨hbytes, hfound⟩ := not_batchMissing h
  have hle : b.length ≤ q.inFlightMessages ∧ rawBytes b ≤ q.queueBytes := by
    simp only [BatchMissing, not_or] at hfound
    omega
  have hf := h.inFlight
  have hq := h.queueBytes
  have hm := h.messages_le
  have hb := h.bytes_le
  simp only [inFlightCount_focus, inFlightBytes_focus] at hf hq
  refine ⟨{ q with
    inFlightMessages := q.inFlightMessages - b.length
    queueBytes := q.queueBytes - rawBytes b }, ?_, ?_⟩
  · unfold completeBatch
    rw [hbytes]
    simp [hfound, subSize_ok hle.1, subSize_ok hle.2, bind, Except.bind, pure, Except.pure]
  · refine ⟨h.reservedMessages, h.reservedBytes, ?_, ?_, ?_, ?_⟩
    · simp
      omega
    · simp
      omega
    · simp only
      omega
    · simp only
      omega

end MailQueue

/-! ## Workers -/

/-- The protocol of batches; the ghost is the batch a worker has popped. -/
def batchProtocol : Protocol workerSig WorkerState (List MailJob) where
  agrees w batch := w.batch = batch
  pre op _ batch :=
    match op with
    | .popBatch _ => batch = []
    | .completeBatch count bytes => count = batch.length ∧ bytes = batchBytes batch
    | _ => True
  post op batch answer batch' :=
    match op, answer with
    | .popBatch _, popped => batch' = popped
    | .completeBatch _ _, _ => batch' = []
    | _, _ => batch' = batch

namespace Worker

theorem wp_call (op : WorkerOp) {Q : WorkerState → op.Answer → List MailJob → Prop}
    {w : WorkerState} {batch : List MailJob} :
    Act.wp batchProtocol (call op) Q w batch ↔
      w.batch = batch ∧ batchProtocol.pre op w batch ∧
        ∀ r batch', batchProtocol.post op batch r batch' → Q w r batch' :=
  Iff.rfl

/-- Operations other than popping and completing leave the batch alone. -/
theorem keeps_writeFile (path : Text) (content : FileContent) :
    Act.Keeps batchProtocol (call (.writeFileAtomic path content)) :=
  Act.Keeps.call (fun _ _ _ => trivial) (fun _ _ _ hp => hp)

theorem keeps_commit (records : List (MailJob × ParseResult)) :
    Act.Keeps batchProtocol (call (.writeSqliteRecords records)) :=
  Act.Keeps.call (fun _ _ _ => trivial) (fun _ _ _ hp => hp)

theorem keeps_writeFiles (files : List (Text × FileContent)) :
    Act.Keeps batchProtocol (writeFiles files) := by
  induction files with
  | nil => exact .pure true
  | cons file files ih =>
    refine .bind (keeps_writeFile _ _) ?_
    intro written
    exact .ite _ (.pure false) ih

theorem keeps_writeFiles? (files : Option (List (Text × FileContent))) :
    Act.Keeps batchProtocol (writeFiles? files) := by
  cases files with
  | none => exact .pure false
  | some files => exact keeps_writeFiles files

theorem keeps_writeStorageArtifact (job : MailJob) (result : ParseResult) :
    Act.Keeps batchProtocol (writeStorageArtifact job result) := by
  refine .bind (keeps_writeFiles? _) ?_
  intro pending
  refine .ite _ (.pure false) (.bind (keeps_writeFiles _) ?_)
  intro parsed
  exact .ite _ (.pure false) (keeps_writeFiles? _)

theorem keeps_writeStorageArtifacts (records : List (MailJob × ParseResult)) :
    Act.Keeps batchProtocol (writeStorageArtifacts records) := by
  induction records with
  | nil => exact .pure true
  | cons record records ih =>
    refine .bind (keeps_writeStorageArtifact _ _) ?_
    intro written
    exact .ite _ (.pure false) ih

theorem keeps_tryWriteBatch (C : Config) (attempts : Nat) (batch : List MailJob) :
    Act.Keeps batchProtocol (tryWriteBatch C attempts batch) := by
  induction attempts with
  | zero => exact .pure false
  | succ attempts ih =>
    have hwrite : Act.Keeps batchProtocol (writeBatch C batch) := by
      refine .bind (keeps_writeStorageArtifacts _) ?_
      intro written
      exact .ite _ (.pure false) (keeps_commit _)
    refine .bind hwrite ?_
    intro written
    exact .ite _ (.pure true) ih

theorem keeps_writeBatchWithIsolation (C : Config) (batch : List MailJob) :
    Act.Keeps batchProtocol (writeBatchWithIsolation C batch) := by
  fun_induction writeBatchWithIsolation C batch with
  | case1 => exact .pure ()
  | case2 poison =>
    refine .bind (keeps_tryWriteBatch C _ _) ?_
    intro written
    refine .ite _ (.pure ()) (.bind (keeps_writeFile _ _) ?_)
    intro recorded
    exact .pure ()
  | case3 first second rest batch ihLeft ihRight =>
    refine .bind (keeps_tryWriteBatch C _ _) ?_
    intro written
    refine .ite _ (.pure ()) (.bind ihLeft ?_)
    intro _
    exact ihRight

theorem keeps_loopTest : Act.Keeps batchProtocol loopTest := by
  refine .bind (.call (fun _ _ _ => trivial) (fun _ _ _ hp => hp)) ?_
  intro running
  refine .ite _ (.pure true) (.bind (.call (fun _ _ _ => trivial) (fun _ _ _ hp => hp)) ?_)
  intro size
  exact .pure _

/-- One turn of `writer_loop` pops at most one batch and completes exactly what it popped. -/
theorem wp_writerLoop (C : Config) {w : WorkerState} (hidle : w.batch = []) :
    Act.wp batchProtocol (writerLoop C) (fun w _ batch => w.batch = batch ∧ batch = []) w [] := by
  unfold writerLoop
  simp only [Act.wp_bind, Act.wp_ite, Act.wp_pure, Act.wp_modify]
  refine keeps_loopTest.wp hidle ?_
  intro continues
  split
  · exact ⟨hidle, rfl⟩
  · refine (wp_call _).mpr ⟨hidle, rfl, ?_⟩
    intro batch batch' hp
    subst hp
    split
    · rename_i hempty
      exact ⟨rfl, List.isEmpty_iff.mp hempty⟩
    · refine (keeps_writeBatchWithIsolation C _).wp rfl ?_
      intro _
      refine (wp_call _).mpr ⟨rfl, ⟨rfl, rfl⟩, ?_⟩
      intro _ batch'' hp
      exact ⟨hp.symm, hp⟩

end Worker

end RapidInbox

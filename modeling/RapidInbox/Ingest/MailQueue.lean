import RapidInbox.Ingest.MailJob

/-!
# The bounded mail queue

`MailQueue` of `cpp/ingestd/src/mail_queue.cpp`.  Every method holds the queue's mutex for its whole
body, so each is one atomic function here.  `size_t` is modelled by natural numbers: an addition is
taken modulo `2 ^ 64`, and a subtraction that would wrap is an error, so that its absence can be
stated.
-/

namespace RapidInbox

/-- Number of values of `std::size_t`. -/
def sizeMod : Nat := 2 ^ 64

/-- `a + b` on `std::size_t`. -/
def addSize (a b : Nat) : Nat := (a + b) % sizeMod

/-- A `size_t` subtraction went below zero. -/
inductive SizeWrap where
  | wrapped
  deriving DecidableEq, Repr

/-- `a - b` on `std::size_t`, refused where it would wrap. -/
def subSize (a b : Nat) : Except SizeWrap Nat :=
  if b ≤ a then .ok (a - b) else .error .wrapped

theorem subSize_ok {a b : Nat} (h : b ≤ a) : subSize a b = .ok (a - b) := if_pos h

theorem addSize_of_lt {a b : Nat} (h : a + b < sizeMod) : addSize a b = a + b := Nat.mod_eq_of_lt h

/-- `MailQueue`'s fields; both capacities are `size_t` values. -/
structure MailQueue where
  capacityMessages : Nat
  capacityBytes : Nat
  messages_lt : capacityMessages < sizeMod
  bytes_lt : capacityBytes < sizeMod
  queue : List MailJob := []
  queueBytes : Nat := 0
  reservedMessages : Nat := 0
  reservedBytes : Nat := 0
  inFlightMessages : Nat := 0
  reservationsPaused : Bool := false
  closed : Bool := false
  deriving DecidableEq, Repr

/-- Raw bytes of a list of jobs. -/
def rawBytes (jobs : List MailJob) : Nat := (jobs.map fun job => job.rawContent.length).sum

@[simp] theorem rawBytes_nil : rawBytes [] = 0 := rfl

@[simp] theorem rawBytes_cons (job : MailJob) (jobs : List MailJob) :
    rawBytes (job :: jobs) = job.rawContent.length + rawBytes jobs := rfl

@[simp] theorem rawBytes_append (xs ys : List MailJob) :
    rawBytes (xs ++ ys) = rawBytes xs + rawBytes ys := by
  simp [rawBytes]

/-- The `size_t` sum a worker computes of its batch (`ingest_app.cpp:148-151`). -/
def batchBytes (jobs : List MailJob) : Nat :=
  jobs.foldl (fun bytes job => addSize bytes job.rawContent.length) 0

/-- The sum is exact as long as it fits. -/
theorem batchBytes_eq {jobs : List MailJob} (h : rawBytes jobs < sizeMod) :
    batchBytes jobs = rawBytes jobs := by
  have fold : ∀ (js : List MailJob) (n : Nat), n + rawBytes js < sizeMod →
      js.foldl (fun bytes job => addSize bytes job.rawContent.length) n = n + rawBytes js := by
    intro js
    induction js with
    | nil => intro n _; simp
    | cons job js ih =>
      intro n hn
      rw [rawBytes_cons] at hn
      rw [List.foldl_cons, addSize_of_lt (by omega), ih _ (by omega), rawBytes_cons]
      omega
  simpa [batchBytes] using fold jobs 0 (by omega)

namespace MailQueue

/-- `has_capacity_unlocked` (`mail_queue.cpp:19-30`). -/
def hasCapacityUnlocked (q : MailQueue) (bytes : Nat) : Except SizeWrap Bool := do
  if q.reservationsPaused then
    return false
  if q.capacityMessages ≤ addSize (addSize q.queue.length q.reservedMessages) q.inFlightMessages then
    return false
  if q.capacityBytes < bytes then
    return false
  let room ← subSize q.capacityBytes bytes
  if room < q.queueBytes then
    return false
  let free ← subSize room q.queueBytes
  return decide (q.reservedBytes ≤ free)

/-- `stats().total_messages`. -/
def totalMessages (q : MailQueue) : Nat :=
  q.queue.length + q.reservedMessages + q.inFlightMessages

/-- `set_reservations_paused`. -/
def setReservationsPaused (q : MailQueue) (paused : Bool) : MailQueue :=
  { q with reservationsPaused := paused }

/-- `try_reserve`. -/
def tryReserve (q : MailQueue) (bytes : Nat) : Except SizeWrap (Bool × MailQueue) := do
  if q.closed then
    return (false, q)
  if !(← q.hasCapacityUnlocked bytes) then
    return (false, q)
  return (true, { q with
    reservedMessages := addSize q.reservedMessages 1
    reservedBytes := addSize q.reservedBytes bytes })

/-- `try_grow_reservation` (`mail_queue.cpp:50-71`): the bytes added, zero when none were. -/
def tryGrowReservation (q : MailQueue) (minimumAdditional preferredAdditional : Nat) :
    Except SizeWrap (Nat × MailQueue) := do
  if minimumAdditional = 0 ∨ preferredAdditional < minimumAdditional then
    return (0, q)
  if q.closed ∨ q.reservedMessages = 0 ∨ q.capacityBytes < q.queueBytes then
    return (0, q)
  let room ← subSize q.capacityBytes q.queueBytes
  if room < q.reservedBytes then
    return (0, q)
  let available ← subSize room q.reservedBytes
  if available < minimumAdditional then
    return (0, q)
  let added := min preferredAdditional available
  return (added, { q with reservedBytes := addSize q.reservedBytes added })

/-- The test at the top of `push_reserved` and `cancel_reservation`: the counters cannot hold the
    reservation that is handed back. -/
def ReservationMissing (q : MailQueue) (reserved : Nat) : Prop :=
  q.reservedMessages = 0 ∨ q.reservedBytes < reserved

instance (q : MailQueue) (reserved : Nat) : Decidable (q.ReservationMissing reserved) :=
  inferInstanceAs (Decidable (_ ∨ _))

/-- `push_reserved` (`mail_queue.cpp:73-89`). -/
def pushReserved (q : MailQueue) (job : MailJob) (reserved : Nat) :
    Except SizeWrap (Bool × MailQueue) := do
  if q.ReservationMissing reserved then
    return (false, q)
  let q := { q with
    reservedMessages := ← subSize q.reservedMessages 1
    reservedBytes := ← subSize q.reservedBytes reserved }
  if q.closed ∨ reserved < job.rawContent.length then
    return (false, q)
  return (true, { q with
    queueBytes := addSize q.queueBytes job.rawContent.length
    queue := q.queue ++ [job] })

/-- `cancel_reservation` (`mail_queue.cpp:91-101`). -/
def cancelReservation (q : MailQueue) (reserved : Nat) : Except SizeWrap MailQueue := do
  if q.ReservationMissing reserved then
    return q
  return { q with
    reservedMessages := ← subSize q.reservedMessages 1
    reservedBytes := ← subSize q.reservedBytes reserved }

/-- The test at the top of `complete_batch`. -/
def BatchMissing (q : MailQueue) (messageCount bytes : Nat) : Prop :=
  q.inFlightMessages < messageCount ∨ q.queueBytes < bytes

instance (q : MailQueue) (messageCount bytes : Nat) : Decidable (q.BatchMissing messageCount bytes) :=
  inferInstanceAs (Decidable (_ ∨ _))

/-- `complete_batch` (`mail_queue.cpp:103-113`). -/
def completeBatch (q : MailQueue) (messageCount bytes : Nat) : Except SizeWrap MailQueue := do
  if q.BatchMissing messageCount bytes then
    return q
  return { q with
    inFlightMessages := ← subSize q.inFlightMessages messageCount
    queueBytes := ← subSize q.queueBytes bytes }

/-- `pop_batch` once its waits are over.  A wait may end on its timeout in any state, so the queue
    is popped as it stands. -/
def popBatch (q : MailQueue) (maxItems : Nat) : List MailJob × MailQueue :=
  let batch := q.queue.take maxItems
  (batch, { q with
    queue := q.queue.drop maxItems
    inFlightMessages := addSize q.inFlightMessages batch.length })

/-- `close`. -/
def close (q : MailQueue) : MailQueue := { q with closed := true }

end MailQueue

end RapidInbox

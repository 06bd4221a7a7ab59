import RapidInbox.Ingest.SmtpSession

/-!
# What a session has been answered

`SessionLog` keeps what the operations of a session have answered, and `envelopeProtocol` moves it
along.  A growth of a reservation adds nothing, or what was asked for (`tryGrowReservation_granted`),
and a message may be pushed only with a reservation that holds it and within every limit it was
accepted under.
-/

namespace RapidInbox

open Conc

/-! ## Limits -/

/-- The size limit of a recipient's domain; zero and below is no limit. -/
def RecipientDelivery.sizeLimit? (r : RecipientDelivery) : Option Nat :=
  r.domainPolicy.bind fun policy =>
    if 0 < policy.maxMessageSizeBytes then some policy.maxMessageSizeBytes.toNat else none

/-- The smallest of the server's limit and the recipients' limits. -/
def messageLimit (maxMessageSizeBytes : Nat) (recipients : List RecipientDelivery) : Nat :=
  (recipients.filterMap RecipientDelivery.sizeLimit?).foldl min maxMessageSizeBytes

theorem foldl_min_le (limits : List Nat) (n : Nat) :
    limits.foldl min n ≤ n ∧ ∀ limit ∈ limits, limits.foldl min n ≤ limit := by
  induction limits generalizing n with
  | nil => exact ⟨Nat.le_refl n, fun _ h => absurd h List.not_mem_nil⟩
  | cons limit limits ih =>
    obtain ⟨hle, hall⟩ := ih (min n limit)
    refine ⟨Nat.le_trans hle (Nat.min_le_left n limit), ?_⟩
    intro limit' h
    rcases List.mem_cons.mp h with rfl | h
    · exact Nat.le_trans hle (Nat.min_le_right n limit')
    · exact hall limit' h

theorem messageLimit_le (maxMessageSizeBytes : Nat) (recipients : List RecipientDelivery) :
    messageLimit maxMessageSizeBytes recipients ≤ maxMessageSizeBytes :=
  (foldl_min_le _ _).1

theorem messageLimit_append (maxMessageSizeBytes : Nat) (recipients : List RecipientDelivery)
    (r : RecipientDelivery) :
    messageLimit maxMessageSizeBytes (recipients ++ [r]) =
      r.sizeLimit?.toList.foldl min (messageLimit maxMessageSizeBytes recipients) := by
  unfold messageLimit
  rw [List.filterMap_append, List.foldl_append]
  cases h : r.sizeLimit? <;> simp [h]

/-- A message is within the limits it was accepted under. -/
structure MailJob.WithinLimits (job : MailJob) (maxMessageSizeBytes : Nat) : Prop where
  server : job.rawContent.length ≤ maxMessageSizeBytes
  recipients : ∀ r ∈ job.recipients, ∀ limit, r.sizeLimit? = some limit →
    job.rawContent.length ≤ limit

theorem MailJob.withinLimits {job : MailJob} {maxMessageSizeBytes : Nat}
    (h : job.rawContent.length ≤ messageLimit maxMessageSizeBytes job.recipients) :
    job.WithinLimits maxMessageSizeBytes where
  server := Nat.le_trans h (messageLimit_le _ _)
  recipients r hr limit hlimit :=
    Nat.le_trans h ((foldl_min_le _ _).2 limit (List.mem_filterMap.mpr ⟨r, hr, hlimit⟩))

/-! ## The protocol -/

structure SessionLog where
  /-- A growth was refused. -/
  growthFailed : Bool := false
  /-- Maintenance was on, a file was not written or the queue did not take a message. -/
  failed : Bool := false
  messageId : Text := []
  receivedAt : Timestamp := 0
  pushed : List MailJob := []

/-- The log after one more answer. -/
def SessionLog.record (x : SessionLog) : (op : SessionOp) → op.Answer → SessionLog
  | .maintenanceActive, active => { x with failed := x.failed || active }
  | .tryGrowReservation _ _, (added : Nat) => { x with growthFailed := x.growthFailed || added = 0 }
  | .pushReserved job _, taken =>
    if taken then { x with pushed := x.pushed ++ [job] } else { x with failed := true }
  | .makePrefixedId _, id => { x with messageId := id }
  | .utcNow, t => { x with receivedAt := t }
  | .writeFileAtomic _ _, written => { x with failed := x.failed || !written }
  | _, _ => x

/-- What a growth may answer. -/
def Granted : (op : SessionOp) → op.Answer → Prop
  | .tryGrowReservation minimum preferred, (added : Nat) =>
    added = 0 ∨ minimum ≤ added ∧ added ≤ preferred
  | _, _ => True

def envelopeProtocol : Protocol sessionSig SmtpSession SessionLog where
  agrees _ _ := True
  pre op s _ :=
    match op with
    | .pushReserved job reserved =>
      job.WithinLimits s.maxMessageSizeBytes ∧ job.rawContent.length ≤ reserved
    | _ => True
  post op x answer x' := Granted op answer ∧ x' = x.record op answer

/-- Answers under which every step succeeds. -/
def granting : (op : SessionOp) → op.Answer
  | .maintenanceActive => false
  | .tryReserve _ => true
  | .tryGrowReservation minimum preferred => if minimum ≤ preferred then preferred else 0
  | .pushReserved _ _ => true
  | .cancelReservation _ => ()
  | .makePrefixedId idPrefix => idPrefix
  | .utcNow => (0 : Nat)
  | .snapshotRulesIfChanged _ => none
  | .writeFileAtomic _ _ => true
  | .countRecipientRejection => ()

theorem granting_allowed (op : SessionOp) (x : SessionLog) :
    ∃ x', envelopeProtocol.post op x (granting op) x' := by
  refine ⟨_, ?_, rfl⟩
  cases op with
  | tryGrowReservation minimum preferred =>
    by_cases h : minimum ≤ preferred
    · exact .inr (by simp [granting, h])
    · exact .inl (by simp [granting, h])
  | _ => trivial

/-- The queue grants nothing, or at least the minimum and at most what is preferred. -/
theorem MailQueue.tryGrowReservation_granted {q q' : MailQueue} {minimum preferred added : Nat}
    (h : q.tryGrowReservation minimum preferred = .ok (added, q')) :
    Granted (.tryGrowReservation minimum preferred) added := by
  unfold MailQueue.tryGrowReservation at h
  split at h
  · cases h
    exact .inl rfl
  · rename_i hasked
    split at h
    · cases h
      exact .inl rfl
    · rename_i hopen
      rw [subSize_ok (by omega)] at h
      simp only [bind, Except.bind] at h
      split at h
      · cases h
        exact .inl rfl
      · rename_i hroom
        rw [subSize_ok (by omega)] at h
        simp only at h
        split at h
        · cases h
          exact .inl rfl
        · cases h
          exact .inr ⟨by omega, Nat.min_le_left _ _⟩

namespace SmtpSession

/-- The weakest precondition for `envelopeProtocol`. -/
abbrev swp {α : Type} (m : SessionM α) (Q : SmtpSession → α → SessionLog → Prop)
    (s : SmtpSession) (x : SessionLog) : Prop :=
  Act.wp envelopeProtocol m Q s x

variable {α : Type} {s : SmtpSession} {x : SessionLog}

theorem swp_call (op : SessionOp) {Q : SmtpSession → op.Answer → SessionLog → Prop}
    (hpre : envelopeProtocol.pre op s x) (hQ : ∀ r, Granted op r → Q s r (x.record op r)) :
    swp (call op) Q s x := by
  refine ⟨trivial, hpre, ?_⟩
  rintro r x' ⟨hgranted, rfl⟩
  exact hQ r hgranted

theorem swp_sub {a b : Nat} {Q : SmtpSession → Nat → SessionLog → Prop} (hle : b ≤ a)
    (hQ : Q s (a - b) x) : swp (sub a b) Q s x := by
  unfold sub
  rw [subSize_ok hle]
  exact hQ

/-! ## Releasing a transaction -/

/-- `release_queue_reservation` hands back whatever is held and changes nothing else. -/
theorem swp_releaseQueueReservation {Q : SmtpSession → Unit → SessionLog → Prop}
    (hQ : ∀ bytes, Q { s with queueReservationActive := false, queueReservationBytes := bytes } () x) :
    swp releaseQueueReservation Q s x := by
  unfold releaseQueueReservation
  simp only [Act.wp_bind, Act.wp_get, Act.wp_ite, Act.wp_pure]
  cases hactive : s.queueReservationActive with
  | false =>
    have hs : { s with
        queueReservationActive := false, queueReservationBytes := s.queueReservationBytes } = s := by
      cases s
      simp_all
    have := hQ s.queueReservationBytes
    rw [hs] at this
    simpa using this
  | true => exact swp_call _ trivial fun _ _ => hQ 0

/-- A session without a transaction; `bytes` is what an inactive reservation still shows. -/
def cleared (s : SmtpSession) (bytes : Nat) : SmtpSession :=
  { s with
    mailFrom := [], mailFromSeen := false, mailSmtputf8 := false
    declaredMessageSize := none, recipients := [], data := []
    queueReservationActive := false, queueReservationBytes := bytes
    inData := false, dataTooLarge := false, dataQueueFull := false, dataOctetsReceived := 0
    effectiveMessageSizeBytes := s.maxMessageSizeBytes }

theorem swp_clearTransactionState {Q : SmtpSession → Unit → SessionLog → Prop}
    (hQ : ∀ bytes, Q (s.cleared bytes) () x) : swp clearTransactionState Q s x := by
  unfold clearTransactionState releaseDataBuffer
  simp only [Act.wp_bind, Act.wp_modify]
  exact swp_releaseQueueReservation hQ

theorem swp_clearAndReply (reply : Reply) {Q : SmtpSession → Option Reply → SessionLog → Prop}
    (hQ : ∀ bytes, Q (s.cleared bytes) (some reply) x) : swp (clearAndReply reply) Q s x := by
  unfold clearAndReply
  simp only [Act.wp_bind, Act.wp_pure]
  exact swp_clearTransactionState hQ

theorem swp_underMaintenance {Q : SmtpSession → Bool → SessionLog → Prop}
    (hoff : Q s false x) (hon : Q s true { x with failed := true }) :
    swp underMaintenance Q s x := by
  unfold underMaintenance
  simp only [Act.wp_bind, Act.wp_get, Act.wp_ite, Act.wp_pure]
  split
  · refine swp_call _ trivial ?_
    rintro (_ | _) -
    · simpa [SessionLog.record] using hoff
    · simpa [SessionLog.record] using hon
  · exact hoff

/-! ## Data that is not kept -/

/-- The transaction has given up its data. -/
def dropped (s : SmtpSession) (bytes : Nat) : SmtpSession :=
  { s with data := [], queueReservationActive := false, queueReservationBytes := bytes }

theorem swp_markDataTooLarge {Q : SmtpSession → Unit → SessionLog → Prop}
    (hQ : ∀ bytes, Q ({ s with dataTooLarge := true }.dropped bytes) () x) :
    swp markDataTooLarge Q s x := by
  unfold markDataTooLarge releaseDataBuffer
  simp only [Act.wp_bind, Act.wp_modify]
  exact swp_releaseQueueReservation hQ

theorem swp_markDataQueueFull {Q : SmtpSession → Unit → SessionLog → Prop}
    (hQ : ∀ bytes, Q ({ s with dataQueueFull := true }.dropped bytes) () x) :
    swp markDataQueueFull Q s x := by
  unfold markDataQueueFull releaseDataBuffer
  simp only [Act.wp_bind, Act.wp_modify]
  exact swp_releaseQueueReservation hQ

/-! ## Growing a reservation -/

theorem le_preferredTarget (s : SmtpSession) (required : Nat) :
    required ≤ s.preferredTarget required :=
  Nat.le_max_right _ _

theorem preferredTarget_le {required : Nat} (h : required ≤ s.effectiveMessageSizeBytes) :
    s.preferredTarget required ≤ s.effectiveMessageSizeBytes := by
  unfold preferredTarget
  dsimp only
  rw [Nat.max_le]
  refine ⟨?_, h⟩
  split
  · exact Nat.min_le_right _ _
  · exact Nat.le_refl _

/-- A reservation grows to what is required, within the limit of the message. -/
theorem swp_ensureDataReservation {required : Nat} {Q : SmtpSession → Bool → SessionLog → Prop}
    (hactive : s.queueReservationActive = true) (hrequired : required ≤ s.effectiveMessageSizeBytes)
    (hbytes : s.queueReservationBytes ≤ s.effectiveMessageSizeBytes)
    (hsize : s.effectiveMessageSizeBytes < sizeMod)
    (hfail : Q s false { x with growthFailed := true })
    (hgrown : ∀ bytes, required ≤ bytes → bytes ≤ s.effectiveMessageSizeBytes →
      Q { s with queueReservationBytes := bytes } true x) :
    swp (ensureDataReservation required) Q s x := by
  unfold ensureDataReservation
  simp only [Act.wp_bind, Act.wp_get, Act.wp_ite, Act.wp_pure, Act.wp_modify, hactive, Bool.not_true,
    Bool.false_eq_true, if_false]
  split
  · rename_i hheld
    exact hgrown s.queueReservationBytes hheld hbytes
  · have hlow := le_preferredTarget s required
    have hhigh := preferredTarget_le hrequired
    refine swp_sub (by omega) (swp_sub (by omega) (swp_call _ trivial ?_))
    intro added hgranted
    split
    · rename_i hzero
      subst hzero
      simpa [SessionLog.record] using hfail
    · rename_i hadded
      rcases hgranted with hzero | ⟨hmin, hmax⟩
      · exact absurd hzero hadded
      · have hsum : addSize s.queueReservationBytes added = s.queueReservationBytes + added :=
          addSize_of_lt (by omega)
        have hlog : x.record (.tryGrowReservation (required - s.queueReservationBytes)
            (s.preferredTarget required - s.queueReservationBytes)) added = x := by
          simp [SessionLog.record, hadded]
        rw [hsum, hlog]
        exact hgrown _ (by omega) (by omega)

end SmtpSession

end RapidInbox

import RapidInbox.Ingest.SmtpSession

/-!
# What a session owns of the queue

A session owns at most one reservation, and `queue_reservation_active_` and
`queue_reservation_bytes_` say which.  `reservationProtocol` states how each shared operation moves
that ownership, and every method of the session follows it: a reservation is asked for only when
none is held, grown, pushed or cancelled only when it is held, and handed back with exactly the
bytes that were reserved.  A method that follows the protocol also performs no `size_t` subtraction
that wraps.
-/

namespace RapidInbox

open Conc

/-- The reservation a session has recorded in its fields. -/
def SmtpSession.reservation (s : SmtpSession) : Option Nat :=
  if s.queueReservationActive then some s.queueReservationBytes else none

/-- The protocol of the queue's reservations; the ghost is the reservation held. -/
def reservationProtocol : Protocol sessionSig SmtpSession (Option Nat) where
  agrees s held := s.reservation = held
  pre op _ held :=
    match op with
    | .tryReserve _ => held = none
    | .tryGrowReservation _ _ => held.isSome
    | .pushReserved _ reserved => held = some reserved
    | .cancelReservation reserved => held = some reserved
    | _ => True
  post op held answer held' :=
    match op, answer with
    | .tryReserve bytes, granted => held' = bif granted then some bytes else none
    | .tryGrowReservation _ _, (added : Nat) =>
      held' = if added = 0 then held else held.map (addSize · added)
    | .pushReserved _ _, _ => held' = none
    | .cancelReservation _, _ => held' = none
    | _, _ => held' = held

namespace SmtpSession

/-- Between two calls of its methods a session holds a reservation only while it reads data. -/
def AtRest (s : SmtpSession) : Prop := s.inData = false → s.queueReservationActive = false

/-- What a method leaves behind: the recorded reservation is the one held. -/
def Settled (s : SmtpSession) (_ : Option Reply) (held : Option Nat) : Prop :=
  s.reservation = held ∧ s.AtRest

/-- The weakest precondition for the reservation protocol. -/
abbrev rwp {α : Type} (m : SessionM α) (Q : SmtpSession → α → Option Nat → Prop)
    (s : SmtpSession) (held : Option Nat) : Prop :=
  Act.wp reservationProtocol m Q s held

variable {α : Type} {s : SmtpSession} {held : Option Nat}

theorem rwp_call (op : SessionOp) {Q : SmtpSession → op.Answer → Option Nat → Prop} :
    rwp (call op) Q s held ↔
      s.reservation = held ∧ reservationProtocol.pre op s held ∧
        ∀ r held', reservationProtocol.post op held r held' → Q s r held' :=
  Iff.rfl

/-- An operation that does not touch reservations keeps what is held. -/
theorem rwp_call_frame {op : SessionOp} {Q : SmtpSession → op.Answer → Option Nat → Prop}
    (hagree : s.reservation = held) (hpre : reservationProtocol.pre op s held)
    (hpost : ∀ r held', reservationProtocol.post op held r held' → held' = held)
    (hQ : ∀ r, Q s r held) : rwp (call op) Q s held := by
  refine ⟨hagree, hpre, ?_⟩
  intro r held' hp
  rw [hpost r held' hp]
  exact hQ r

theorem reservation_of_inactive (h : s.queueReservationActive = false) : s.reservation = none := by
  simp [reservation, h]

theorem reservation_of_active (h : s.queueReservationActive = true) :
    s.reservation = some s.queueReservationBytes := by
  simp [reservation, h]

/-- `release_queue_reservation` hands back whatever is held and changes nothing else. -/
theorem rwp_releaseQueueReservation {Q : SmtpSession → Unit → Option Nat → Prop}
    (hagree : s.reservation = held)
    (hQ : ∀ b, Q { s with queueReservationActive := false, queueReservationBytes := b } () none) :
    rwp releaseQueueReservation Q s held := by
  unfold releaseQueueReservation
  simp only [Act.wp_bind, Act.wp_get, Act.wp_ite, Act.wp_pure]
  cases hb : s.queueReservationActive with
  | false =>
    rw [reservation_of_inactive hb] at hagree
    subst hagree
    have hs : s = { s with
        queueReservationActive := false, queueReservationBytes := s.queueReservationBytes } := by
      cases s
      simp_all
    have := hQ s.queueReservationBytes
    rw [← hs] at this
    simpa using this
  | true =>
    rw [reservation_of_active hb] at hagree
    subst hagree
    refine ⟨reservation_of_active hb, rfl, ?_⟩
    intro _ held' hp
    subst hp
    exact hQ 0

/-- `clear_transaction_state` leaves a session that is at rest and holds nothing. -/
theorem rwp_clearTransactionState {Q : SmtpSession → Unit → Option Nat → Prop}
    (hagree : s.reservation = held)
    (hQ : ∀ s' : SmtpSession, s'.reservation = none → s'.AtRest → Q s' () none) :
    rwp clearTransactionState Q s held := by
  unfold clearTransactionState releaseDataBuffer
  simp only [Act.wp_bind, Act.wp_modify]
  refine rwp_releaseQueueReservation hagree ?_
  intro b
  exact hQ _ rfl (fun _ => rfl)

theorem rwp_clearAndReply (r : Reply) (hagree : s.reservation = held) :
    rwp (clearAndReply r) Settled s held := by
  unfold clearAndReply
  simp only [Act.wp_bind, Act.wp_pure]
  exact rwp_clearTransactionState hagree fun s' hn hr => ⟨hn, hr⟩

/-- A session reading data gives up its reservation and stays in the data phase. -/
theorem rwp_markDataTooLarge (hagree : s.reservation = held) (hdata : s.inData = true) :
    rwp markDataTooLarge (fun s _ held => s.reservation = held ∧ s.AtRest) s held := by
  unfold markDataTooLarge releaseDataBuffer
  simp only [Act.wp_bind, Act.wp_modify]
  refine rwp_releaseQueueReservation hagree ?_
  intro b
  exact ⟨rfl, fun h => by simp [hdata] at h⟩

theorem rwp_markDataQueueFull (hagree : s.reservation = held) (hdata : s.inData = true) :
    rwp markDataQueueFull (fun s _ held => s.reservation = held ∧ s.AtRest) s held := by
  unfold markDataQueueFull releaseDataBuffer
  simp only [Act.wp_bind, Act.wp_modify]
  refine rwp_releaseQueueReservation hagree ?_
  intro b
  exact ⟨rfl, fun h => by simp [hdata] at h⟩

/-- A subtraction whose guard holds does not fault. -/
theorem rwp_sub {a b : Nat} {Q : SmtpSession → Nat → Option Nat → Prop} (hle : b ≤ a)
    (hQ : Q s (a - b) held) : rwp (sub a b) Q s held := by
  unfold sub
  rw [subSize_ok hle]
  exact hQ

theorem rwp_ensureDataReservation (required : Nat)
    {Q : SmtpSession → Bool → Option Nat → Prop} (hagree : s.reservation = held)
    (hfail : Q s false held)
    (hok : ∀ b, Q { s with queueReservationBytes := b } true
      { s with queueReservationBytes := b }.reservation) :
    rwp (ensureDataReservation required) Q s held := by
  unfold ensureDataReservation
  simp only [Act.wp_bind, Act.wp_get, Act.wp_ite, Act.wp_pure]
  cases hb : s.queueReservationActive with
  | false => simpa using hfail
  | true =>
    have hheld : held = some s.queueReservationBytes := by
      rw [← hagree, reservation_of_active hb]
    subst hheld
    simp only [Bool.not_true, Bool.false_eq_true, if_false]
    split
    · have := hok s.queueReservationBytes
      rwa [hagree] at this
    · rename_i hlt
      have htarget : s.queueReservationBytes ≤ preferredTarget s required := by
        have hreq : required ≤ preferredTarget s required := Nat.le_max_right _ _
        omega
      refine rwp_sub (by omega) (rwp_sub htarget ?_)
      refine (rwp_call _).mpr ⟨hagree, rfl, ?_⟩
      intro added held' hp
      subst hp
      split
      · exact hfail
      · have := hok (addSize s.queueReservationBytes added)
        simpa [reservation, hb] using this

/-- A file write does not touch the queue. -/
theorem rwp_writePendingArtifacts (job : MailJob) {Q : SmtpSession → Bool → Option Nat → Prop}
    (hagree : s.reservation = held) (hQ : ∀ r, Q s r held) :
    rwp (writePendingArtifacts job) Q s held := by
  unfold writePendingArtifacts
  split
  · exact hQ false
  · simp only [Act.wp_bind, Act.wp_ite, Act.wp_pure]
    split
    · exact hQ false
    · refine rwp_call_frame hagree trivial (fun _ _ hp => hp) ?_
      intro written
      split
      · exact hQ false
      · exact rwp_call_frame hagree trivial (fun _ _ hp => hp) hQ

theorem rwp_underMaintenance {Q : SmtpSession → Bool → Option Nat → Prop}
    (hagree : s.reservation = held) (hQ : ∀ r, Q s r held) : rwp underMaintenance Q s held := by
  unfold underMaintenance
  simp only [Act.wp_bind, Act.wp_get, Act.wp_ite, Act.wp_pure]
  split
  · exact rwp_call_frame hagree trivial (fun _ _ hp => hp) hQ
  · exact hQ false

/-- Pushing consumes the reservation whether or not the queue takes the job. -/
theorem rwp_handOver (job : MailJob) (hactive : s.reservation = some s.queueReservationBytes)
    (hagree : s.reservation = held) : rwp (handOver job) Settled s held := by
  unfold handOver
  simp only [Act.wp_bind, Act.wp_get, Act.wp_modify]
  refine (rwp_call _).mpr ⟨hagree, by rw [← hagree, hactive]; rfl, ?_⟩
  intro pushed held' hp
  subst hp
  refine rwp_clearTransactionState rfl ?_
  intro s' hnone hrest
  simp only [Act.wp_ite, Act.wp_pure]
  split <;> exact ⟨hnone, hrest⟩

theorem rwp_persistAndHandOver (job : MailJob)
    (hactive : s.reservation = some s.queueReservationBytes) (hagree : s.reservation = held) :
    rwp (persistAndHandOver job) Settled s held := by
  unfold persistAndHandOver
  simp only [Act.wp_bind, Act.wp_get, Act.wp_ite]
  split
  · split
    · exact rwp_clearAndReply _ hagree
    · refine rwp_writePendingArtifacts job hagree ?_
      intro written
      split
      · exact rwp_clearAndReply _ hagree
      · exact rwp_handOver _ hactive hagree
  · refine rwp_underMaintenance hagree ?_
    intro maintenance
    split
    · exact rwp_clearAndReply _ hagree
    · exact rwp_handOver _ hactive hagree

theorem rwp_finishData (P : Platform) (hagree : s.reservation = held) :
    rwp (finishData P) Settled s held := by
  unfold finishData
  simp only [Act.wp_bind, Act.wp_get, Act.wp_ite, Act.wp_modify]
  refine rwp_underMaintenance hagree ?_
  intro maintenance
  split
  · exact rwp_clearAndReply _ hagree
  · refine rwp_call_frame hagree trivial (fun _ _ hp => hp) ?_
    intro receivedAt
    refine rwp_call_frame hagree trivial (fun _ _ hp => hp) ?_
    intro messageId
    split
    · exact rwp_clearAndReply _ hagree
    · rename_i hactive
      split
      · exact rwp_clearAndReply _ hagree
      · refine rwp_persistAndHandOver _ ?_ hagree
        exact reservation_of_active (by simpa using hactive)

theorem rwp_handleDataLine (line : Bytes) (hagree : s.reservation = held)
    (hdata : s.inData = true) : rwp (handleDataLine line) Settled s held := by
  have hrest : s.AtRest := fun h => by simp [hdata] at h
  unfold handleDataLine
  simp only [Act.wp_bind, Act.wp_get, Act.wp_ite, Act.wp_modify, Act.wp_pure]
  split
  · exact ⟨hagree, hrest⟩
  · refine rwp_sub (contentOffset_le line) ?_
    split
    · exact rwp_markDataTooLarge hagree hdata
    · rename_i hroom
      refine rwp_sub (by omega) ?_
      split
      · exact rwp_markDataTooLarge hagree hdata
      · rename_i hfits
        refine rwp_sub (by omega) ?_
        split
        · exact rwp_markDataTooLarge hagree hdata
        · split
          · exact ⟨hagree, fun h => by simp [hdata] at h⟩
          · refine rwp_ensureDataReservation _ hagree ?_ ?_
            · exact rwp_markDataQueueFull hagree hdata
            · intro b
              exact ⟨rfl, fun h => by simp [hdata] at h⟩

theorem rwp_refreshDomainRules {Q : SmtpSession → Unit → Option Nat → Prop}
    (hagree : s.reservation = held) (hkeep : Q s () held)
    (hQ : ∀ rules, Q { s with domainRules := rules } () held) :
    rwp refreshDomainRules Q s held := by
  unfold refreshDomainRules
  simp only [Act.wp_bind, Act.wp_get, Act.wp_ite, Act.wp_pure]
  split
  · exact hkeep
  · refine rwp_call_frame hagree trivial (fun _ _ hp => hp) ?_
    intro refreshed
    cases refreshed with
    | none => exact hkeep
    | some rules => exact hQ rules

theorem rwp_handleMail (P : Platform) (line : Bytes) (hagree : s.reservation = held)
    (hrest : s.AtRest) : rwp (handleMail P line) Settled s held := by
  unfold handleMail
  simp only [Act.wp_bind, Act.wp_get]
  split
  · exact ⟨hagree, hrest⟩
  · simp only [Act.wp_bind, releaseDataBuffer, Act.wp_modify, Act.wp_pure]
    exact rwp_refreshDomainRules hagree ⟨hagree, hrest⟩ fun _ => ⟨hagree, hrest⟩

theorem rwp_acceptRecipient (rcptTo : Text) (m : DomainMatch) (hagree : s.reservation = held)
    (hrest : s.AtRest) : rwp (acceptRecipient rcptTo m) Settled s held := by
  unfold acceptRecipient
  simp only [Act.wp_bind, Act.wp_get, Act.wp_ite, Act.wp_pure]
  split
  · exact ⟨hagree, hrest⟩
  · split
    · exact rwp_call_frame hagree trivial (fun _ _ hp => hp) fun _ => ⟨hagree, hrest⟩
    · split
      · exact ⟨hagree, hrest⟩
      · simp only [Act.wp_bind, Act.wp_modify, Act.wp_pure]
        exact rwp_call_frame hagree trivial (fun _ _ hp => hp) fun _ => ⟨hagree, hrest⟩

theorem rwp_handleRcpt (P : Platform) (line : Bytes) (hagree : s.reservation = held)
    (hrest : s.AtRest) : rwp (handleRcpt P line) Settled s held := by
  unfold handleRcpt
  simp only [Act.wp_bind, Act.wp_get, Act.wp_ite, Act.wp_pure]
  split
  · exact ⟨hagree, hrest⟩
  · split
    · exact ⟨hagree, hrest⟩
    · simp only [Act.wp_ite, Act.wp_pure]
      split
      · exact ⟨hagree, hrest⟩
      · split
        · exact ⟨hagree, hrest⟩
        · split
          · rw [Act.wp_bind]
            exact rwp_call_frame hagree trivial (fun _ _ hp => hp) fun _ => ⟨hagree, hrest⟩
          · exact rwp_acceptRecipient _ _ hagree hrest

/-- `DATA` asks for a reservation only when none is held. -/
theorem rwp_handleData (hagree : s.reservation = held) (hdata : s.inData = false)
    (hrest : s.AtRest) : rwp handleData Settled s held := by
  have hnone : held = none := by rw [← hagree, reservation_of_inactive (hrest hdata)]
  unfold handleData
  simp only [Act.wp_bind, Act.wp_get, Act.wp_ite, Act.wp_pure, releaseDataBuffer, Act.wp_modify]
  split
  · exact ⟨hagree, hrest⟩
  · refine rwp_underMaintenance hagree ?_
    intro maintenance
    split
    · exact ⟨hagree, hrest⟩
    · refine (rwp_call _).mpr ⟨hagree, hnone, ?_⟩
      intro granted held' hp
      subst hp
      cases granted with
      | false => exact ⟨by rw [hagree, hnone]; rfl, hrest⟩
      | true => exact ⟨rfl, fun h => by simp at h⟩

theorem rwp_handleCommand (P : Platform) (line : Bytes) (hagree : s.reservation = held)
    (hdata : s.inData = false) (hrest : s.AtRest) :
    rwp (handleCommand P line) Settled s held := by
  unfold handleCommand
  simp only [Act.wp_bind, Act.wp_get, Act.wp_ite, Act.wp_pure, Act.wp_modify]
  repeat' split
  all_goals first
    | exact ⟨hagree, hrest⟩
    | exact rwp_clearTransactionState hagree fun s' hn hr => ⟨hn, hr⟩
    | exact rwp_clearAndReply _ hagree
    | exact rwp_handleMail P line hagree hrest
    | exact rwp_handleRcpt P line hagree hrest
    | exact rwp_handleData hagree hdata hrest

/-- `handle_line` follows the reservation protocol from every session at rest. -/
theorem rwp_handleLine (P : Platform) (line : Bytes) (hagree : s.reservation = held)
    (hrest : s.AtRest) : rwp (handleLine P line) Settled s held := by
  unfold handleLine
  simp only [Act.wp_bind, Act.wp_get, Act.wp_ite]
  split
  · rename_i hdata
    split
    · split
      · exact rwp_clearAndReply _ hagree
      · split
        · exact rwp_clearAndReply _ hagree
        · exact rwp_finishData P hagree
    · exact rwp_handleDataLine line hagree hdata
  · rename_i hdata
    exact rwp_handleCommand P line hagree (by simpa using hdata) hrest

theorem rwp_rejectOverlongDataLine (hagree : s.reservation = held) (hrest : s.AtRest) :
    rwp rejectOverlongDataLine Settled s held := by
  unfold rejectOverlongDataLine
  simp only [Act.wp_bind, Act.wp_get, Act.wp_ite, Act.wp_pure]
  split
  · rename_i hdata
    exact rwp_markDataTooLarge hagree hdata
  · exact ⟨hagree, hrest⟩

/-- The destructor follows the protocol from any point of a method, not only at rest. -/
theorem rwp_destroy (hagree : s.reservation = held) :
    rwp destroy (fun s _ held => s.reservation = held ∧ held = none) s held := by
  unfold destroy
  simp only [Act.wp_bind, Act.wp_pure]
  exact rwp_releaseQueueReservation hagree fun _ => ⟨rfl, rfl⟩

end SmtpSession

end RapidInbox

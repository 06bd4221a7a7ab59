import RapidInbox.Ingest.StatusLoop

/-!
# After the drained acknowledgement

`Sealed app token` is the time between the acknowledgement of a token and the removal of its lock.
The maintenance owner relies on a quiet daemon in it: no reservation, no queued or popped job, no
write to the storage directory, no SQLite write.

`sealProtocol` follows what the status thread knows: what it has read of the lock in this turn,
whether the pause flag says so, whether the queue was then empty, and which token it remembers to
have acknowledged.  A read of the lock that fails makes the thread forget the token, and it then
flushes rejected metrics a second time; `Steady` excludes this and an acknowledgement that becomes
visible although its write throws.
-/

namespace RapidInbox

open Conc

/-! ## What the status thread knows -/

/-- The knowledge of the status thread. -/
structure StatusGhost where
  /-- The acknowledged token it remembers. -/
  acked : Option Text := none
  /-- What this turn has read of the lock. -/
  seen : Option MaintenanceState := none
  /-- The pause flag has been set to it. -/
  applied : Bool := false
  /-- After that the queue was found empty. -/
  zero : Bool := false

/-- The lock as read allows a SQLite write: there is none, or its token is not acknowledged. -/
def StatusGhost.MayFlush (g : StatusGhost) : Prop :=
  ∃ m, g.seen = some m ∧ (m.active = false ∨ ∃ t, m.token = some t ∧ g.acked ≠ some t)

/-- The protocol of the drained acknowledgement. -/
def sealProtocol : Protocol statusSig StatusState StatusGhost where
  agrees s g := ∀ t, g.acked = some t → s.acknowledged = t
  pre op _ g :=
    match op with
    | .setReservationsPaused paused => ∃ m, g.seen = some m ∧ paused = m.active
    | .writeRejectedMetric _ _ => g.MayFlush
    | .writeMaintenanceDrained token =>
      g.seen = some ⟨true, some token⟩ ∧ g.applied = true ∧ g.zero = true
    | _ => True
  post op g answer g' :=
    match op, answer with
    | .maintenanceState, (m : MaintenanceState) =>
      (m.token.isSome = true → m.active = true) ∧
        g' = ⟨if m.token = g.acked then g.acked else none, some m, false, false⟩
    | .setReservationsPaused _, _ => g' = { g with applied := true }
    | .queueTotalMessages, (total : Nat) => g' = { g with zero := decide (total = 0) && g.applied }
    | .writeMaintenanceDrained token, written =>
      g' = if written then { g with acked := some token } else g
    | _, _ => g' = g

namespace StatusLoop

variable {s : StatusState} {g : StatusGhost}

/-- Between two turns the thread only remembers its token. -/
def Remembers (s : StatusState) (_ : Bool) (g : StatusGhost) : Prop :=
  ∀ t, g.acked = some t → s.acknowledged = t

/-- The weakest precondition for the seal protocol. -/
abbrev swp {α : Type} (m : StatusM α) (Q : StatusState → α → StatusGhost → Prop) (s : StatusState)
    (g : StatusGhost) : Prop :=
  Act.wp sealProtocol m Q s g

theorem swp_call (op : StatusOp) {Q : StatusState → op.Answer → StatusGhost → Prop}
    (hagree : ∀ t, g.acked = some t → s.acknowledged = t) (hpre : sealProtocol.pre op s g)
    (hQ : ∀ r g', sealProtocol.post op g r g' → Q s r g') : swp (call op) Q s g :=
  ⟨hagree, hpre, hQ⟩

/-- An operation that teaches the thread nothing. -/
theorem swp_call_frame {op : StatusOp} {Q : StatusState → op.Answer → StatusGhost → Prop}
    (hagree : ∀ t, g.acked = some t → s.acknowledged = t) (hpre : sealProtocol.pre op s g)
    (hpost : ∀ r g', sealProtocol.post op g r g' → g' = g) (hQ : ∀ r, Q s r g) :
    swp (call op) Q s g := by
  refine swp_call op hagree hpre ?_
  intro r g' hp
  rw [hpost r g' hp]
  exact hQ r

theorem swp_flushRejectedMetrics {Q : StatusState → Bool → StatusGhost → Prop}
    (hagree : ∀ t, g.acked = some t → s.acknowledged = t) (hmay : g.MayFlush)
    (hQ : ∀ s' r, s'.acknowledged = s.acknowledged → Q s' r g) :
    swp flushRejectedMetrics Q s g := by
  unfold flushRejectedMetrics
  simp only [Act.wp_bind, Act.wp_ite, Act.wp_pure, Act.wp_modify]
  refine swp_call_frame hagree trivial (fun _ _ hp => hp) ?_
  intro pending
  split
  · exact hQ s true rfl
  · refine swp_call_frame hagree trivial (fun _ _ hp => hp) ?_
    intro now
    refine swp_call_frame hagree hmay (fun _ _ hp => hp) ?_
    intro committed
    split
    · exact hQ _ true rfl
    · refine swp_call_frame hagree trivial (fun _ _ hp => hp) ?_
      intro _
      exact hQ _ false rfl

/-- A token is acknowledged only when the thread has read it, paused the queue for it and then found
    the queue empty. -/
theorem swp_acknowledgeDrained {token : Text} {Q : StatusState → Bool → StatusGhost → Prop}
    (hagree : ∀ t, g.acked = some t → s.acknowledged = t)
    (hseen : g.seen = some ⟨true, some token⟩) (happlied : g.applied = true)
    (hzero : g.zero = true) (hnew : g.acked ≠ some token)
    (hQ : ∀ s' g' r, (∀ t, g'.acked = some t → s'.acknowledged = t) → Q s' r g') :
    swp (acknowledgeDrained token) Q s g := by
  unfold acknowledgeDrained
  simp only [Act.wp_bind, Act.wp_ite, Act.wp_pure, Act.wp_modify]
  have hmay : g.MayFlush := ⟨_, hseen, .inr ⟨token, rfl, hnew⟩⟩
  refine swp_flushRejectedMetrics hagree hmay ?_
  intro s' flushed hs'
  have hagree' : ∀ t, g.acked = some t → s'.acknowledged = t :=
    fun t ht => hs'.trans (hagree t ht)
  split
  · exact hQ s' g false hagree'
  · refine swp_call_frame hagree' trivial (fun _ _ hp => hp) ?_
    intro _
    refine swp_call _ hagree' ⟨hseen, happlied, hzero⟩ ?_
    intro written g' hg'
    cases written with
    | false =>
      obtain rfl : g' = g := hg'
      exact hQ s' g' false hagree'
    | true =>
      obtain rfl : g' = { g with acked := some token } := hg'
      refine hQ _ _ true ?_
      intro t ht
      exact Option.some.inj ht

/-- After the read, the pause flag and the count, this is what the thread knows. -/
structure Counted (g : StatusGhost) (m : MaintenanceState) (total : Nat) : Prop where
  seen : g.seen = some m
  active : m.token.isSome = true → m.active = true
  applied : g.applied = true
  zero : total = 0 → g.zero = true

theorem swp_acknowledgeIfDrained {m : MaintenanceState} {total : Nat}
    {Q : StatusState → Bool → StatusGhost → Prop}
    (hagree : ∀ t, g.acked = some t → s.acknowledged = t) (hcounted : Counted g m total)
    (hQ : ∀ s' g' r, (∀ t, g'.acked = some t → s'.acknowledged = t) → Q s' r g') :
    swp (acknowledgeIfDrained total m.token) Q s g := by
  cases htoken : m.token with
  | none => exact hQ s g true hagree
  | some token =>
    unfold acknowledgeIfDrained
    simp only [Act.wp_bind, Act.wp_get, Act.wp_ite, Act.wp_pure]
    split
    · rename_i hdrained
      have hm : m = ⟨true, some token⟩ := by
        have hactive := hcounted.active (by rw [htoken]; rfl)
        cases m
        simp_all
      refine swp_acknowledgeDrained hagree (hm ▸ hcounted.seen) hcounted.applied
        (hcounted.zero hdrained.1) ?_ hQ
      intro hacked
      exact hdrained.2 (hagree token hacked)
    · exact hQ s g true hagree

/-- Reading the lock and setting the pause flag. -/
theorem swp_readLock {α : Type} {rest : MaintenanceState → StatusM α}
    {Q : StatusState → α → StatusGhost → Prop}
    (hagree : ∀ t, g.acked = some t → s.acknowledged = t)
    (hrest : ∀ m g', (m.token.isSome = true → m.active = true) → g'.seen = some m →
      g'.applied = true → (m.token = none → g'.acked = none) →
      (∀ t, g'.acked = some t → s.acknowledged = t) → (g.acked = none → g'.acked = none) →
      swp (rest m) Q s g') :
    swp (do
      let maintenance ← call .maintenanceState
      applyMaintenanceState maintenance
      rest maintenance) Q s g := by
  simp only [Act.wp_bind, applyMaintenanceState]
  refine swp_call _ hagree trivial ?_
  rintro m g' ⟨hactive, rfl⟩
  have hagree' : ∀ t, (if m.token = g.acked then g.acked else none) = some t →
      s.acknowledged = t := by
    intro t ht
    split at ht
    · exact hagree t ht
    · cases ht
  refine swp_call _ hagree' ⟨m, rfl, rfl⟩ ?_
  rintro _ g'' rfl
  refine hrest m _ hactive rfl rfl ?_ hagree' ?_
  · intro hnone
    simp only [hnone]
    split
    · rename_i hacked
      exact hacked.symm
    · rfl
  · intro hnone
    simp [hnone]

/-- Counting the queue. -/
theorem swp_count {m : MaintenanceState} {Q : StatusState → Nat → StatusGhost → Prop}
    (hagree : ∀ t, g.acked = some t → s.acknowledged = t)
    (hactive : m.token.isSome = true → m.active = true) (hseen : g.seen = some m)
    (happlied : g.applied = true)
    (hQ : ∀ total g', Counted g' m total → g'.acked = g.acked → Q s total g') :
    swp (call .queueTotalMessages) Q s g := by
  refine swp_call _ hagree trivial ?_
  intro total g' hg'
  obtain rfl : g' = { g with zero := decide (total = 0) && g.applied } := hg'
  refine hQ total _ ⟨hseen, hactive, happlied, ?_⟩ rfl
  intro hzero
  simp [hzero, happlied]

theorem swp_publish {token : Option Text} {Q : StatusState → Bool → StatusGhost → Prop}
    (hagree : ∀ t, g.acked = some t → s.acknowledged = t) (hQ : ∀ r, Q s r g) :
    swp (call (.publishIngestStatus token)) Q s g :=
  swp_call_frame hagree trivial (fun _ _ hp => hp) hQ

theorem swp_startWriter (hagree : ∀ t, g.acked = some t → s.acknowledged = t)
    (hfresh : g.acked = none) : swp startWriter Remembers s g := by
  unfold startWriter
  refine swp_readLock hagree ?_
  intro m g' hactive hseen happlied _ hagree' hnone
  simp only [Act.wp_bind]
  refine swp_count hagree' hactive hseen happlied ?_
  intro total g'' hcounted hacked
  have hagree'' : ∀ t, g''.acked = some t → s.acknowledged = t :=
    fun t ht => hagree' t (hacked ▸ ht)
  simp only [Act.wp_ite]
  split
  · rename_i hzero
    cases htoken : m.token with
    | none => exact swp_publish hagree'' fun _ => hagree''
    | some token =>
      simp only [Act.wp_bind, Act.wp_ite, Act.wp_pure]
      have hm : m = ⟨true, some token⟩ := by
        have hactive' := hactive (by rw [htoken]; rfl)
        cases m
        simp_all
      have hnew : g''.acked ≠ some token := by
        rw [hacked, hnone hfresh]
        intro heq
        cases heq
      refine swp_acknowledgeDrained hagree'' (hm ▸ hcounted.seen) hcounted.applied
        (hcounted.zero hzero) hnew ?_
      intro s' g₃ r hs'
      split
      · exact hs'
      · exact swp_publish hs' fun _ => hs'
  · exact swp_publish hagree'' fun _ => hagree''

theorem swp_flushUnlessActive {m : MaintenanceState} {rest : StatusM Bool}
    (hagree : ∀ t, g.acked = some t → s.acknowledged = t) (hseen : g.seen = some m)
    (hrest : ∀ s', s'.acknowledged = s.acknowledged → swp rest Remembers s' g) :
    swp (flushUnlessActive m rest) Remembers s g := by
  unfold flushUnlessActive
  simp only [Act.wp_bind, Act.wp_ite, Act.wp_pure]
  split
  · rename_i hinactive
    refine swp_flushRejectedMetrics hagree ⟨m, hseen, .inl (by simpa using hinactive)⟩ ?_
    intro s' flushed hs'
    split
    · exact fun t ht => hs'.trans (hagree t ht)
    · exact hrest s' hs'
  · exact hrest s rfl

theorem swp_reportStatus {m : MaintenanceState} {total : Nat}
    (hagree : ∀ t, g.acked = some t → s.acknowledged = t) (hcounted : Counted g m total)
    (hforget : m.token = none → g.acked = none) :
    swp (reportStatus total m.token) Remembers s g := by
  have hend : ∀ s' : StatusState, (∀ t, g.acked = some t → s'.acknowledged = t) →
      swp (acknowledgeIfDrained total m.token) (fun s a g => if (!a) = true then Remembers s true g
        else swp (call (.publishIngestStatus m.token)) (fun s _ g => Remembers s true g) s g)
        s' g := by
    intro s' hs'
    refine swp_acknowledgeIfDrained hs' hcounted ?_
    intro s'' g' r hs''
    split
    · exact hs''
    · exact swp_publish hs'' fun _ => hs''
  unfold reportStatus
  simp only [Act.wp_bind, Act.wp_ite, Act.wp_pure, Act.wp_modify]
  split
  · rename_i hnone
    refine hend _ ?_
    intro t ht
    rw [hforget (by simpa using hnone)] at ht
    cases ht
  · exact hend s hagree

theorem swp_statusTurn (hagree : ∀ t, g.acked = some t → s.acknowledged = t) :
    swp statusTurn Remembers s g := by
  unfold statusTurn
  refine (Act.wp_bind ..).mpr (swp_call_frame hagree trivial (fun _ _ hp => hp) ?_)
  intro running
  refine (Act.wp_ite ..).mpr ?_
  split
  · exact hagree
  · refine swp_readLock hagree ?_
    intro m g' hactive hseen happlied hforget hagree' _
    refine (Act.wp_bind ..).mpr (swp_count hagree' hactive hseen happlied ?_)
    intro total g'' hcounted hacked
    have hagree'' : ∀ t, g''.acked = some t → s.acknowledged = t :=
      fun t ht => hagree' t (hacked ▸ ht)
    refine swp_flushUnlessActive hagree'' hcounted.seen ?_
    intro s' hs'
    refine swp_reportStatus (fun t ht => hs'.trans (hagree'' t ht)) hcounted ?_
    intro hnone
    rw [hacked]
    exact hforget hnone

theorem swp_publishFinalIngestStatus (hagree : ∀ t, g.acked = some t → s.acknowledged = t) :
    swp publishFinalIngestStatus Remembers s g := by
  unfold publishFinalIngestStatus
  refine swp_readLock hagree ?_
  intro m g' hactive hseen happlied _ hagree' _
  refine swp_flushUnlessActive hagree' hseen ?_
  intro s' hs'
  have hagree₂ : ∀ t, g'.acked = some t → s'.acknowledged = t :=
    fun t ht => hs'.trans (hagree' t ht)
  unfold reportFinalStatus
  simp only [Act.wp_bind, Act.wp_ite, Act.wp_pure]
  refine swp_count hagree₂ hactive hseen happlied ?_
  intro total g'' hcounted hacked
  have hagree₃ : ∀ t, g''.acked = some t → s'.acknowledged = t :=
    fun t ht => hagree₂ t (hacked ▸ ht)
  refine swp_publish hagree₃ ?_
  intro published
  split
  · exact hagree₃
  · exact swp_acknowledgeIfDrained hagree₃ hcounted fun _ _ _ h => h

end StatusLoop

/-! ## The queue while it is paused -/

namespace MailQueue

variable {q q' : MailQueue}

/-- A paused queue grants no reservation. -/
theorem tryReserve_paused (hpaused : q.reservationsPaused = true) {bytes : Nat} {granted : Bool}
    (h : q.tryReserve bytes = .ok (granted, q')) : q' = q := by
  simp only [tryReserve, hasCapacityUnlocked, hpaused, bind, Except.bind, pure, Except.pure,
    if_true] at h
  split at h
  · cases h
    rfl
  · cases h
    rfl

theorem tryGrowReservation_total {minimum preferred added : Nat}
    (h : q.tryGrowReservation minimum preferred = .ok (added, q')) :
    q'.totalMessages = q.totalMessages := by
  simp only [tryGrowReservation, bind, Except.bind, pure, Except.pure] at h
  repeat' split at h
  all_goals first
    | (cases h; done)
    | (cases h; rfl)

/-- Without a reservation nothing can be pushed or cancelled. -/
theorem pushReserved_empty (hzero : q.totalMessages = 0) {job : MailJob} {n : Nat} {taken : Bool}
    (h : q.pushReserved job n = .ok (taken, q')) : q' = q := by
  have hmissing : q.ReservationMissing n := by
    left
    unfold totalMessages at hzero
    omega
  simp only [pushReserved, hmissing, if_true, pure, Except.pure] at h
  cases h
  rfl

theorem cancelReservation_empty (hzero : q.totalMessages = 0) {n : Nat}
    (h : q.cancelReservation n = .ok q') : q' = q := by
  have hmissing : q.ReservationMissing n := by
    left
    unfold totalMessages at hzero
    omega
  simp only [cancelReservation, hmissing, if_true, pure, Except.pure] at h
  cases h
  rfl

theorem popBatch_empty (hzero : q.totalMessages = 0) (maxItems : Nat) :
    (q.popBatch maxItems).2.totalMessages = 0 := by
  unfold totalMessages at hzero ⊢
  have hnil : q.queue = [] := List.length_eq_zero_iff.mp (by omega)
  have hflight : q.inFlightMessages = 0 := by omega
  have hreserved : q.reservedMessages = 0 := by omega
  simp [popBatch, hnil, hflight, hreserved, addSize, sizeMod]

theorem completeBatch_empty (hzero : q.totalMessages = 0) {count bytes : Nat}
    (h : q.completeBatch count bytes = .ok q') : q'.totalMessages = 0 := by
  have hflight : q.inFlightMessages = 0 := by
    unfold totalMessages at hzero
    omega
  by_cases hmissing : q.BatchMissing count bytes
  · simp only [completeBatch, hmissing, if_true, pure, Except.pure] at h
    cases h
    exact hzero
  · obtain ⟨hcount, hbytes⟩ := not_or.mp hmissing
    obtain rfl : count = 0 := by omega
    simp only [completeBatch, hmissing, if_false, bind, Except.bind, pure, Except.pure,
      subSize_ok (Nat.zero_le _), subSize_ok (Nat.not_lt.mp hbytes)] at h
    cases h
    exact hzero

end MailQueue

namespace Daemon

variable {D : Type} {C : DaemonConfig D} {d d' : Daemon D}

theorem performSession_empty (env : Env) (op : SessionOp) (hpaused : d.queue.reservationsPaused = true)
    (hzero : d.queue.totalMessages = 0) :
    (d.performSession env op).2.queue.totalMessages = 0 := by
  cases op with
  | maintenanceActive => exact hzero
  | utcNow => exact hzero
  | snapshotRulesIfChanged known => exact hzero
  | countRecipientRejection => exact hzero
  | makePrefixedId idPrefix => exact hzero
  | writeFileAtomic path content =>
    cases hw : env.write <;> simpa [performSession, writeFile, hw] using hzero
  | tryReserve bytes =>
    simp only [performSession]
    cases hq : d.queue.tryReserve bytes with
    | error e => exact hzero
    | ok r =>
      simp only [withQueue]
      rw [MailQueue.tryReserve_paused hpaused hq]
      exact hzero
  | tryGrowReservation minimum preferred =>
    simp only [performSession]
    cases hq : d.queue.tryGrowReservation minimum preferred with
    | error e => exact hzero
    | ok r =>
      simp only [withQueue]
      rw [MailQueue.tryGrowReservation_total hq]
      exact hzero
  | cancelReservation reserved =>
    simp only [performSession]
    cases hq : d.queue.cancelReservation reserved with
    | error e => exact hzero
    | ok r =>
      simp only [withQueue, Except.map]
      rw [MailQueue.cancelReservation_empty hzero hq]
      exact hzero
  | pushReserved job reserved =>
    simp only [performSession]
    cases hq : d.queue.pushReserved job reserved with
    | error e => exact hzero
    | ok r =>
      obtain ⟨taken, q'⟩ := r
      obtain rfl := MailQueue.pushReserved_empty hzero hq
      simp only [withQueue]
      cases taken <;> exact hzero

theorem performWorker_empty (env : Env) (op : WorkerOp) (hzero : d.queue.totalMessages = 0) :
    (performWorker C d env op).2.queue.totalMessages = 0 := by
  cases op with
  | loadRunning => exact hzero
  | queueSize => exact hzero
  | popBatch maxItems => exact MailQueue.popBatch_empty hzero maxItems
  | writeFileAtomic path content =>
    cases hw : env.write <;> simpa [performWorker, writeFile, hw] using hzero
  | writeSqliteRecords records =>
    simp only [performWorker]
    repeat' split
    all_goals exact hzero
  | completeBatch count bytes =>
    simp only [performWorker]
    cases hq : d.queue.completeBatch count bytes with
    | error e => exact hzero
    | ok q' => exact MailQueue.completeBatch_empty hzero hq

theorem performWorker_paused (env : Env) (op : WorkerOp) :
    (performWorker C d env op).2.queue.reservationsPaused = d.queue.reservationsPaused := by
  cases op with
  | loadRunning => rfl
  | queueSize => rfl
  | popBatch maxItems => rfl
  | writeFileAtomic path content => cases hw : env.write <;> simp [performWorker, writeFile, hw]
  | writeSqliteRecords records =>
    simp only [performWorker]
    repeat' split
    all_goals rfl
  | completeBatch count bytes =>
    simp only [performWorker]
    cases hq : d.queue.completeBatch count bytes with
    | error e => rfl
    | ok q' => exact (MailQueue.completeBatch_sameJobs hq).2.2

/-- Only `set_reservations_paused` changes the pause flag, and while it is set an empty queue stays
    empty. -/
theorem step_paused {a : Action} (ha : ∀ paused, a ≠ .setReservationsPaused paused)
    (hstep : d.step C a = some d') :
    d'.queue.reservationsPaused = d.queue.reservationsPaused ∧
      (d.queue.reservationsPaused = true → d.queue.totalMessages = 0 →
        d'.queue.totalMessages = 0) := by
  have hsame : d'.queue = d.queue → d'.queue.reservationsPaused = d.queue.reservationsPaused ∧
      (d.queue.reservationsPaused = true → d.queue.totalMessages = 0 →
        d'.queue.totalMessages = 0) := by
    intro hqueue
    rw [hqueue]
    exact ⟨rfl, fun _ hzero => hzero⟩
  have hmethod : ∀ {i : Nat} {m : SessionM (Option Reply)}, d.startMethod i m = some d' →
      d'.queue = d.queue := by
    intro i m hm
    unfold startMethod at hm
    split at hm
    · cases hm
      rfl
    · cases hm
  cases a with
  | connect rules remoteIp sessionId =>
    cases hstep
    exact ⟨rfl, fun _ hzero => hzero⟩
  | line i bytes => exact hsame (hmethod hstep)
  | overlongLine i => exact hsame (hmethod hstep)
  | sessionStep i env =>
    simp only [step] at hstep
    split at hstep
    · rename_i s op k closing hget
      cases hstep
      exact ⟨(performSession_effect env op).paused,
        fun hpaused hzero => performSession_empty env op hpaused hzero⟩
    · cases hstep
  | destroy i =>
    simp only [step] at hstep
    split at hstep
    · obtain ⟨s, -, rfl⟩ := Option.map_eq_some_iff.mp hstep
      exact ⟨rfl, fun _ hzero => hzero⟩
    · cases hstep
  | reap i =>
    simp only [step] at hstep
    split at hstep
    · cases hstep
      exact ⟨rfl, fun _ hzero => hzero⟩
    · cases hstep
  | workerStep i env =>
    simp only [step] at hstep
    split at hstep
    · rename_i w op k hget
      cases hstep
      refine ⟨?_, fun _ hzero => performWorker_empty env op hzero⟩
      exact performWorker_paused env op
    · cases hstep
      exact ⟨rfl, fun _ hzero => hzero⟩
    · cases hstep
  | setReservationsPaused paused => exact absurd rfl (ha paused)
  | close =>
    cases hstep
    exact ⟨rfl, fun _ hzero => hzero⟩
  | stopRunning =>
    simp only [step] at hstep
    split at hstep
    · cases hstep
      exact ⟨rfl, fun _ hzero => hzero⟩
    · cases hstep

end Daemon

/-! ## The sealed time -/

/-- The thread follows the seal protocol. -/
def StatusThread.Knows (t : StatusThread) (g : StatusGhost) : Prop :=
  match t.prog? with
  | some prog => prog.Follows sealProtocol StatusLoop.Remembers g
  | none => True

namespace IngestApp

variable {D : Type} {C : DaemonConfig D} {app app' : IngestApp D} {g : StatusGhost}

/-- The token is acknowledged and its lock is still there. -/
def Sealed (app : IngestApp D) (token : Text) : Prop :=
  app.lock = .published token ∧ token ∈ app.drained

instance (app : IngestApp D) (token : Text) : Decidable (app.Sealed token) :=
  inferInstanceAs (Decidable (_ ∧ _))

/-- What the knowledge of the status thread says about the whole process. -/
structure Means (app : IngestApp D) (g : StatusGhost) : Prop where
  known : ∀ m t, g.seen = some m → m.token = some t → t ∈ app.tokens
  applied : g.applied = true → ∀ m, g.seen = some m → app.queue.reservationsPaused = m.active
  zero : g.zero = true → g.applied = true ∧
    ∀ m, g.seen = some m → m.active = true → app.queue.totalMessages = 0
  isSealed : ∀ t, app.Sealed t → g.acked = some t ∧ (∀ m, g.seen = some m → m = ⟨true, some t⟩) ∧
    app.queue.reservationsPaused = true ∧ app.queue.totalMessages = 0

/-- The invariant of the drain protocol. -/
structure Drains (C : DaemonConfig D) (app : IngestApp D) : Prop where
  journal : app.journal.Sound C
  accounted : app.journal.daemon.Accounted
  thread : ∃ t g, app.status = [t] ∧ t.Knows g ∧ app.Means g
  published : ∀ t, app.lock = .published t → t ∈ app.tokens
  drained : ∀ t ∈ app.drained, t ∈ app.tokens

/-- The operation that thread `i` of the status threads is about to perform. -/
def pendingStatus (app : IngestApp D) (i : Nat) : Option StatusOp :=
  (app.status[i]?.bind (·.prog?)).bind (·.pending?)

/-- A step that neither fails to read an acknowledged lock nor throws after it has made an
    acknowledgement visible. -/
def Steady (app : IngestApp D) : Action → Prop
  | .statusStep i env =>
    (app.pendingStatus i = some .maintenanceState → env.readFails = true →
      ∀ token, ¬ app.Sealed token) ∧
    (∀ token, app.pendingStatus i = some (.writeMaintenanceDrained token) →
      env.write ≠ .failedAfter)
  | _ => True

/-- Knowledge is not affected by what leaves the lock, the acknowledgements and the queue alone. -/
theorem Means.congr (h : app.Means g) (hlock : app'.lock = app.lock)
    (htokens : app'.tokens = app.tokens) (hdrained : app'.drained = app.drained)
    (hqueue : app'.queue = app.queue) : app'.Means g := by
  refine ⟨?_, ?_, ?_, ?_⟩
  · rw [htokens]
    exact h.known
  · rw [hqueue]
    exact h.applied
  · rw [hqueue]
    exact h.zero
  · unfold Sealed
    rw [hqueue, hlock, hdrained]
    exact h.isSealed

theorem journal_pause (h : app.journal.Sound C) (hacc : app.journal.daemon.Accounted)
    (paused : Bool) :
    (app.pause paused).journal.Sound C ∧ (app.pause paused).journal.daemon.Accounted := by
  have hstep : app.journal.step C (.setReservationsPaused paused) =
      some (app.pause paused).journal := by
    simp [Journal.step, Daemon.step, pause, Journal.exchangesAfter, Journal.answersAfter,
      Journal.poppedBy]
  exact ⟨h.step hstep, Daemon.accounted_step (C := C) (a := .setReservationsPaused paused) hacc rfl⟩

/-- The effect of an operation of the status thread on what it knows. -/
theorem performStatus_means (env : StatusEnv) {op : StatusOp} {s : StatusState}
    (h : app.Means g) (hpublished : ∀ t, app.lock = .published t → t ∈ app.tokens)
    (hdrained : ∀ t ∈ app.drained, t ∈ app.tokens) (hpre : sealProtocol.pre op s g)
    (hread : op = .maintenanceState → env.readFails = true → ∀ token, ¬ app.Sealed token)
    (hwrite : ∀ token, op = .writeMaintenanceDrained token → env.write ≠ .failedAfter) :
    ∃ g', sealProtocol.post op g (app.performStatus env op).1 g' ∧
      (app.performStatus env op).2.Means g' ∧
      ∀ t ∈ (app.performStatus env op).2.drained, t ∈ app.tokens := by
  cases op with
  | statusRunning => exact ⟨g, rfl, h, hdrained⟩
  | utcNow => exact ⟨g, rfl, h, hdrained⟩
  | releaseSqliteSession => exact ⟨g, rfl, h, hdrained⟩
  | publishIngestStatus token => exact ⟨g, rfl, h, hdrained⟩
  | exchangePending => exact ⟨g, rfl, h.congr rfl rfl rfl rfl, hdrained⟩
  | addPending count => exact ⟨g, rfl, h.congr rfl rfl rfl rfl, hdrained⟩
  | writeRejectedMetric timestamp count =>
    simp only [performStatus]
    split
    · exact ⟨g, rfl, h, hdrained⟩
    · exact ⟨g, rfl, h.congr rfl rfl rfl rfl, hdrained⟩
  | maintenanceState =>
    refine ⟨_, ⟨?_, rfl⟩, ⟨?_, nofun, nofun, ?_⟩, hdrained⟩
    · simp only [performStatus]
      split
      · intro _
        rfl
      · cases app.lock <;> simp [MaintenanceLock.state]
    · intro m t hm ht
      obtain rfl := Option.some.inj hm
      simp only [performStatus] at ht
      split at ht
      · cases ht
      · refine hpublished t ?_
        cases hlock : app.lock with
        | absent => simp [hlock, MaintenanceLock.state] at ht
        | unpublished => simp [hlock, MaintenanceLock.state] at ht
        | published token =>
          obtain rfl : token = t := by simpa [hlock, MaintenanceLock.state] using ht
          rfl
    · intro t ht
      have hok : env.readFails = false := by
        cases hfails : env.readFails with
        | false => rfl
        | true => exact absurd ht (hread rfl hfails t)
      obtain ⟨hacked, -, hpaused, hzero⟩ := h.isSealed t ht
      have hstate : app.lock.state = ⟨true, some t⟩ := by
        rw [show app.lock = .published t from ht.1]
        rfl
      simp only [performStatus, hok, Bool.false_eq_true, if_false, hstate, hacked]
      refine ⟨if_pos trivial, ?_, hpaused, hzero⟩
      intro m hm
      exact (Option.some.inj hm).symm
  | setReservationsPaused paused =>
    obtain ⟨m, hseen, rfl⟩ := hpre
    refine ⟨_, rfl, ⟨h.known, ?_, ?_, ?_⟩, hdrained⟩
    · intro _ m' hm'
      obtain rfl : m = m' := Option.some.inj (hseen.symm.trans hm')
      rfl
    · intro hz
      exact ⟨rfl, (h.zero hz).2⟩
    · intro t ht
      obtain ⟨hacked, hall, -, hzero⟩ := h.isSealed t ht
      refine ⟨hacked, hall, ?_, hzero⟩
      show m.active = true
      rw [hall m hseen]
  | queueTotalMessages =>
    refine ⟨_, rfl, ⟨h.known, h.applied, ?_, h.isSealed⟩, hdrained⟩
    intro hz
    have hboth : (decide (app.queue.totalMessages = 0) && g.applied) = true := hz
    rw [Bool.and_eq_true] at hboth
    exact ⟨hboth.2, fun _ _ _ => of_decide_eq_true hboth.1⟩
  | writeMaintenanceDrained token =>
    obtain ⟨hseen, happlied, hzero⟩ := hpre
    have htoken : token ∈ app.tokens := h.known _ token hseen rfl
    have hkeep : ∃ g', g' = g ∧ app.Means g' ∧ ∀ t ∈ app.drained, t ∈ app.tokens :=
      ⟨g, rfl, h, hdrained⟩
    cases hw : env.write with
    | failedBefore => simpa [performStatus, hw, sealProtocol] using hkeep
    | failedAfter => exact absurd hw (hwrite token rfl)
    | done =>
      simp only [performStatus, hw]
      refine ⟨_, rfl, ⟨h.known, h.applied, h.zero, ?_⟩, ?_⟩
      · rintro t ⟨hlock, ht⟩
        have hpaused : app.queue.reservationsPaused = true := h.applied happlied _ hseen
        have hempty : app.queue.totalMessages = 0 := (h.zero hzero).2 _ hseen rfl
        have hsame : t = token := by
          rcases List.mem_cons.mp ht with rfl | hold
          · rfl
          · have hm := (h.isSealed t ⟨hlock, hold⟩).2.1 _ hseen
            simpa using hm.symm
        subst hsame
        refine ⟨rfl, ?_, hpaused, hempty⟩
        intro m hm
        exact (Option.some.inj (hseen.symm.trans hm)).symm
      · intro t ht
        rcases List.mem_cons.mp ht with rfl | hold
        · exact htoken
        · exact hdrained t hold

theorem performStatus_frame (env : StatusEnv) (op : StatusOp) (h : app.journal.Sound C)
    (hacc : app.journal.daemon.Accounted) :
    (app.performStatus env op).2.journal.Sound C ∧
      (app.performStatus env op).2.journal.daemon.Accounted ∧
      (app.performStatus env op).2.lock = app.lock ∧
      (app.performStatus env op).2.tokens = app.tokens := by
  cases op with
  | statusRunning => exact ⟨h, hacc, rfl, rfl⟩
  | maintenanceState => exact ⟨h, hacc, rfl, rfl⟩
  | setReservationsPaused paused =>
    obtain ⟨hsound, haccounted⟩ := journal_pause h hacc paused
    exact ⟨hsound, haccounted, rfl, rfl⟩
  | queueTotalMessages => exact ⟨h, hacc, rfl, rfl⟩
  | exchangePending => exact ⟨h, hacc, rfl, rfl⟩
  | utcNow => exact ⟨h, hacc, rfl, rfl⟩
  | writeRejectedMetric timestamp count =>
    simp only [performStatus]
    split <;> exact ⟨h, hacc, rfl, rfl⟩
  | addPending count => exact ⟨h, hacc, rfl, rfl⟩
  | releaseSqliteSession => exact ⟨h, hacc, rfl, rfl⟩
  | writeMaintenanceDrained token =>
    cases hw : env.write <;> simp only [performStatus, hw, and_true] <;> exact ⟨h, hacc⟩
  | publishIngestStatus token => exact ⟨h, hacc, rfl, rfl⟩

theorem knows_withProg {t : StatusThread} {prog prog' : Prog statusSig StatusState Bool}
    (ht : t.prog? = some prog) (h : prog'.Follows sealProtocol StatusLoop.Remembers g) :
    (t.withProg prog').Knows g := by
  cases t with
  | starting p => exact h
  | looping p => exact h
  | finishing p => exact h
  | exited => simp [StatusThread.prog?] at ht

theorem knows_next {t : StatusThread} {s : StatusState} {continues : Bool}
    (h : StatusLoop.Remembers s continues g) : (t.next s continues).Knows g := by
  cases t with
  | starting p =>
    cases continues with
    | true => exact StatusLoop.swp_statusTurn h
    | false => trivial
  | looping p =>
    cases continues with
    | true => exact StatusLoop.swp_statusTurn h
    | false => exact StatusLoop.swp_publishFinalIngestStatus h
  | finishing p => trivial
  | exited => trivial

/-- A step of the daemon while the lock and the acknowledgements stand. -/
theorem Drains.daemonStep {a b : Daemon.Action} {readFails : Bool} {j : Journal D} {m n : Nat}
    (h : Drains C app) (ha : app.underLock readFails a = some b)
    (hstep : app.journal.step C b = some j) :
    Drains C { app with journal := j, rejectedPending := m, counted := n } := by
  obtain ⟨d, hd, hj⟩ := Option.map_eq_some_iff.mp hstep
  have hdaemon : j.daemon = d := by rw [← hj]
  have hb : ∀ paused, b ≠ .setReservationsPaused paused := by
    rintro paused rfl
    cases a <;> simp [underLock] at ha
  obtain ⟨hpaused, hempty⟩ := Daemon.step_paused hb hd
  obtain ⟨t, g, hstatus, hknows, hmeans⟩ := h.thread
  refine ⟨h.journal.step hstep, ?_, ⟨t, g, hstatus, hknows, ?_⟩, h.published, h.drained⟩
  · show j.daemon.Accounted
    rw [hdaemon]
    exact Daemon.accounted_step h.accounted hd
  · have hpaused' : j.daemon.queue.reservationsPaused = app.queue.reservationsPaused := by
      rw [hdaemon]
      exact hpaused
    have hempty' : app.queue.reservationsPaused = true → app.queue.totalMessages = 0 →
        j.daemon.queue.totalMessages = 0 := by
      rw [hdaemon]
      exact hempty
    refine ⟨hmeans.known, ?_, ?_, ?_⟩
    · intro happlied m hm
      exact hpaused'.trans (hmeans.applied happlied m hm)
    · intro hzero
      obtain ⟨happlied, htotal⟩ := hmeans.zero hzero
      refine ⟨happlied, ?_⟩
      intro m hm hactive
      exact hempty' ((hmeans.applied happlied m hm).trans hactive) (htotal m hm hactive)
    · intro token hsealed
      obtain ⟨hacked, hseen, hp, hz⟩ := hmeans.isSealed token hsealed
      exact ⟨hacked, hseen, hpaused'.trans hp, hempty' hp hz⟩

/-- The step lemma. -/
theorem Drains.step {a : Action} (h : Drains C app) (hsteady : app.Steady a)
    (hstep : app.step C a = some app') : Drains C app' := by
  obtain ⟨t, g, hstatus, hknows, hmeans⟩ := h.thread
  cases a with
  | daemon a readFails =>
    simp only [IngestApp.step] at hstep
    obtain ⟨b, hb, hrest⟩ := Option.bind_eq_some_iff.mp hstep
    obtain ⟨j, hj, rfl⟩ := Option.map_eq_some_iff.mp hrest
    exact h.daemonStep hb hj
  | statusStep i env =>
    simp only [IngestApp.step] at hstep
    split at hstep
    · cases hstep
    · rename_i t' hget
      obtain ⟨rfl, rfl⟩ : i = 0 ∧ t' = t := by
        rw [hstatus] at hget
        cases i with
        | zero => exact ⟨rfl, (Option.some.inj hget).symm⟩
        | succ i => simp at hget
      split at hstep
      · rename_i s op k hprog
        cases hstep
        have hfollows : (Prog.call s op k).Follows sealProtocol StatusLoop.Remembers g := by
          unfold StatusThread.Knows at hknows
          rwa [hprog] at hknows
        have hpending : app.pendingStatus 0 = some op := by
          simp [pendingStatus, hget, hprog, Prog.pending?]
        obtain ⟨g', hpost, hmeans', hdrained⟩ := performStatus_means env hmeans h.published
          h.drained hfollows.2.1 (fun hop => hsteady.1 (hop ▸ hpending))
          (fun token hop => hsteady.2 token (hop ▸ hpending))
        obtain ⟨hsound, hacc, hlock, htokens⟩ :=
          performStatus_frame env op h.journal h.accounted
        refine ⟨hsound, hacc, ⟨_, g', by rw [hstatus]; rfl,
          knows_withProg hprog (hfollows.2.2 _ g' hpost), hmeans'.congr rfl rfl rfl rfl⟩, ?_, ?_⟩
        · intro token hpub
          have hpub' := h.published token (hlock ▸ hpub)
          exact htokens ▸ hpub'
        · intro token htoken
          have htoken' := hdrained token htoken
          exact htokens ▸ htoken'
      · rename_i s continues hprog
        cases hstep
        have hremembers : StatusLoop.Remembers s continues g := by
          unfold StatusThread.Knows at hknows
          rwa [hprog] at hknows
        exact ⟨h.journal, h.accounted, ⟨_, g, by rw [hstatus]; rfl, knows_next hremembers,
          hmeans.congr rfl rfl rfl rfl⟩, h.published, h.drained⟩
      · cases hstep
  | stopStatus =>
    cases hstep
    exact ⟨h.journal, h.accounted, ⟨t, g, hstatus, hknows, hmeans.congr rfl rfl rfl rfl⟩,
      h.published, h.drained⟩
  | createLock =>
    simp only [IngestApp.step] at hstep
    split at hstep
    · cases hstep
      refine ⟨h.journal, h.accounted, ⟨t, g, hstatus, hknows, hmeans.known, hmeans.applied,
        hmeans.zero, ?_⟩, ?_, h.drained⟩
      · rintro token ⟨hlock, -⟩
        cases hlock
      · intro token hlock
        cases hlock
    · cases hstep
  | publishToken token =>
    simp only [IngestApp.step] at hstep
    split at hstep
    · rename_i hfresh
      cases hstep
      refine ⟨h.journal, h.accounted, ⟨t, g, hstatus, hknows, ?_, hmeans.applied, hmeans.zero,
        ?_⟩, ?_, ?_⟩
      · intro m t' hm ht'
        exact List.mem_cons_of_mem _ (hmeans.known m t' hm ht')
      · rintro t' ⟨hlock, hdrained⟩
        obtain rfl : token = t' := by simpa using hlock
        exact absurd (h.drained token hdrained) hfresh.2.2
      · intro t' hlock
        obtain rfl : token = t' := by simpa using hlock
        exact List.mem_cons_self
      · intro t' ht'
        exact List.mem_cons_of_mem _ (h.drained t' ht')
    · cases hstep
  | removeLock =>
    cases hstep
    refine ⟨h.journal, h.accounted, ⟨t, g, hstatus, hknows, hmeans.known, hmeans.applied,
      hmeans.zero, ?_⟩, ?_, h.drained⟩
    · rintro token ⟨hlock, -⟩
      cases hlock
    · intro token hlock
      cases hlock

/-- The action writes to the storage directory or to SQLite. -/
def writes (app : IngestApp D) : Action → Bool
  | .daemon (.sessionStep i _) _ =>
    match app.journal.daemon.sessions[i]?.bind (·.prog.pending?) with
    | some (.writeFileAtomic _ _) => true
    | _ => false
  | .daemon (.workerStep i _) _ =>
    match app.journal.daemon.workers[i]? with
    | some (.looping (.call _ (.writeFileAtomic _ _) _)) => true
    | some (.looping (.call _ (.writeSqliteRecords _) _)) => true
    | _ => false
  | .statusStep i _ =>
    match app.pendingStatus i with
    | some (.writeRejectedMetric _ _) => true
    | _ => false
  | _ => false

/-- Nothing is reserved, queued or in flight, and nothing is about to be written. -/
structure Quiet (app : IngestApp D) : Prop where
  reserved : ∀ s ∈ app.journal.daemon.sessionStates, s.queueReservationActive = false
  queued : app.journal.daemon.queue.queue = []
  inFlight : app.journal.daemon.inFlightJobs = []
  silent : ∀ a, app.writes a = false

theorem Drains.no_session_write (h : Drains C app)
    (hreserved : ∀ s ∈ app.journal.daemon.sessionStates, s.queueReservationActive = false)
    {i : Nat} {path : Text} {content : FileContent} :
    app.journal.daemon.sessions[i]?.bind (·.prog.pending?) ≠
      some (.writeFileAtomic path content) := by
  intro hpending
  obtain ⟨t, ht, hop⟩ := Option.bind_eq_some_iff.mp hpending
  obtain ⟨x, -, hfollows⟩ := h.journal.sessions.getElem?_left ht
  unfold SessionThread.Exchanges at hfollows
  cases hprog : t.prog with
  | ret s r => simp [hprog, Prog.pending?] at hop
  | fault => simp [hprog, Prog.pending?] at hop
  | call s op k =>
    obtain rfl : op = .writeFileAtomic path content := by simpa [hprog, Prog.pending?] using hop
    have hmem : s ∈ app.journal.daemon.sessionStates := by
      refine List.mem_filterMap.mpr ⟨t, List.mem_of_getElem? ht, ?_⟩
      rw [hprog]
      rfl
    have hactive : s.queueReservationActive = true := by
      rw [hprog] at hfollows
      split at hfollows
      · exact hfollows.2.1.1
      · exact hfollows.2.1.1
    rw [hreserved s hmem] at hactive
    cases hactive

theorem Drains.no_worker_write (h : Drains C app)
    (hflight : app.journal.daemon.inFlightJobs = []) {i : Nat} {w : WorkerState} {op : WorkerOp}
    {k : op.Answer → Prog workerSig WorkerState Bool}
    (hget : app.journal.daemon.workers[i]? = some (.looping (.call w op k)))
    (hbatch : ∀ phase, drainProtocol.pre op w phase → w.batch ≠ []) : False := by
  obtain ⟨phases, hphases, -⟩ := h.journal.workers
  obtain ⟨phase, -, hfollows⟩ := hphases.getElem?_left hget
  refine hbatch phase hfollows.2.1 ?_
  refine List.eq_nil_iff_forall_not_mem.mpr ?_
  intro job hjob
  have hmem : job ∈ app.journal.daemon.inFlightJobs :=
    List.mem_flatMap.mpr ⟨_, List.mem_of_getElem? hget, hjob⟩
  rw [hflight] at hmem
  cases hmem

/-- A sealed daemon is quiet. -/
theorem Drains.quiet (h : Drains C app) {token : Text} (hsealed : app.Sealed token) :
    app.Quiet := by
  obtain ⟨t, g, hstatus, hknows, hmeans⟩ := h.thread
  obtain ⟨hacked, hseen, -, hzero⟩ := hmeans.isSealed token hsealed
  have hcounters := h.accounted.countersExact
  have htotal : app.journal.daemon.queue.queue.length + app.journal.daemon.queue.reservedMessages +
      app.journal.daemon.queue.inFlightMessages = 0 := hzero
  have hreserved : ∀ s ∈ app.journal.daemon.sessionStates, s.queueReservationActive = false := by
    have hcount := hcounters.reserved_messages
    intro s hs
    have hnone : app.journal.daemon.sessionStates.countP (·.queueReservationActive) = 0 := by omega
    simpa using List.countP_eq_zero.mp hnone s hs
  have hflight : app.journal.daemon.inFlightJobs = [] := by
    have hcount := hcounters.in_flight
    exact List.length_eq_zero_iff.mp (by omega)
  refine ⟨hreserved, List.length_eq_zero_iff.mp (by omega), hflight, ?_⟩
  intro a
  cases a with
  | daemon a readFails =>
    cases a with
    | sessionStep i env =>
      simp only [writes]
      split
      · rename_i hop
        exact absurd hop (h.no_session_write hreserved)
      · rfl
    | workerStep i env =>
      simp only [writes]
      split
      · rename_i hget
        exact (h.no_worker_write hflight hget fun _ hpre => hpre.1).elim
      · rename_i hget
        exact (h.no_worker_write hflight hget fun _ hpre => hpre).elim
      · rfl
    | connect rules remoteIp sessionId => rfl
    | line i bytes => rfl
    | overlongLine i => rfl
    | destroy i => rfl
    | reap i => rfl
    | setReservationsPaused paused => rfl
    | close => rfl
    | stopRunning => rfl
  | statusStep i env =>
    simp only [writes]
    split
    · rename_i timestamp count hop
      -- the thread would have to have read another lock than the acknowledged one
      obtain ⟨prog, hprog, hpending⟩ := Option.bind_eq_some_iff.mp hop
      obtain ⟨t', ht', hprog'⟩ := Option.bind_eq_some_iff.mp hprog
      obtain rfl : t' = t := by
        have hmem := List.mem_of_getElem? ht'
        rw [hstatus] at hmem
        exact List.mem_singleton.mp hmem
      unfold StatusThread.Knows at hknows
      rw [hprog'] at hknows
      cases prog with
      | ret s r => simp [Prog.pending?] at hpending
      | fault => simp [Prog.pending?] at hpending
      | call s op k =>
        obtain rfl : op = .writeRejectedMetric timestamp count := by
          simpa [Prog.pending?] using hpending
        obtain ⟨m, hm, hmay⟩ := hknows.2.1
        obtain rfl := hseen m hm
        rcases hmay with hinactive | ⟨other, hother, hnew⟩
        · cases hinactive
        · obtain rfl := Option.some.inj hother
          exact absurd hacked hnew
    · rfl
  | stopStatus => rfl
  | createLock => rfl
  | publishToken token => rfl
  | removeLock => rfl

/-- In every run whose steps are steady, the daemon is quiet from the drained acknowledgement of a
    token until its lock is removed. -/
theorem sealed_quiet (C : DaemonConfig D) (db : D) (buckets : List (Nat × Nat)) (as : List Action)
    (app : IngestApp D) (hsteady : Transition.Along (step C) Steady (start C db buckets) as)
    (hrun : (start C db buckets).run C as = some app) :
    ∀ token, app.Sealed token → app.Quiet := by
  have hstart : Drains C (start C db buckets) := by
    refine ⟨Journal.sound_start C db, Daemon.accounted_start C db,
      ⟨_, {}, rfl, StatusLoop.swp_startWriter nofun rfl, nofun, nofun, nofun, ?_⟩, nofun, nofun⟩
    intro token hsealed
    cases hsealed.1
  have hdrains := Transition.run_invariant_along
    (fun _ _ _ h hs hstep => Drains.step h hs hstep) hstart hsteady hrun
  intro token hsealed
  exact hdrains.quiet hsealed

/-- A client gives a recipient that is refused. -/
def refusedSession : List Action :=
  [.daemon (.connect Daemon.sampleRules "192.0.2.1".toList "smtp_1".toList) false,
   .daemon (.line 0 (Json.ascii "MAIL FROM:<>".toList)) false, .daemon (.sessionStep 0 {}) false,
   .daemon (.line 0 (Json.ascii "RCPT TO:<u@other.com>".toList)) false,
   .daemon (.sessionStep 0 {}) false]

/-- The status thread starts, a client may be refused, an owner takes the lock, and the thread flushes
    what there is and acknowledges the token. -/
def acknowledgeActions (session : List Action) (turns : Nat) : List Action :=
  List.replicate 5 (.statusStep 0 {}) ++ session ++ [.createLock, .publishToken "t1".toList] ++
    List.replicate turns (.statusStep 0 {})

/-- No failure in any environment. -/
def Action.plain : Action → Bool
  | .statusStep _ env => !env.readFails && env.write == .done
  | _ => true

theorem steady_of_plain {a : Action} (h : a.plain = true) (app : IngestApp D) :
    app.Steady a := by
  cases a with
  | statusStep i env =>
    simp only [Action.plain, Bool.and_eq_true, Bool.not_eq_true', beq_iff_eq] at h
    refine ⟨fun _ hfails => ?_, fun _ _ => ?_⟩
    · rw [h.1] at hfails
      cases hfails
    · rw [h.2]
      exact nofun
  | daemon a readFails => trivial
  | stopStatus => trivial
  | createLock => trivial
  | publishToken token => trivial
  | removeLock => trivial

theorem sealed_quiet_acknowledged : ∃ app,
    (start Daemon.sampleConfig () []).run Daemon.sampleConfig
      (acknowledgeActions refusedSession 9) = some app ∧
    app.Sealed "t1".toList ∧ app.Quiet := by
  have hsome : ((start Daemon.sampleConfig () []).run Daemon.sampleConfig
      (acknowledgeActions refusedSession 9)).map (fun app : IngestApp Unit =>
        decide (app.Sealed "t1".toList)) = some true := by decide +kernel
  obtain ⟨app, hrun, hsealed⟩ := Option.map_eq_some_iff.mp hsome
  have hplain : ∀ a ∈ acknowledgeActions refusedSession 9, a.plain = true := by decide
  have hquiet := sealed_quiet Daemon.sampleConfig () [] _ app
    (Transition.along_of_forall fun a ha app => steady_of_plain (hplain a ha) app) hrun
  exact ⟨app, hrun, of_decide_eq_true hsealed, hquiet _ (of_decide_eq_true hsealed)⟩

/-- A recipient is refused, one read of the lock fails, and the next turn flushes again. -/
def flushAgainActions : List Action :=
  acknowledgeActions [] 7 ++ refusedSession ++
  [.statusStep 0 {}, .statusStep 0 {},
   .statusStep 0 {}, .statusStep 0 { readFails := true }, .statusStep 0 {}, .statusStep 0 {},
   .statusStep 0 {}, .statusStep 0 {},
   .statusStep 0 {}, .statusStep 0 {}, .statusStep 0 {}, .statusStep 0 {}, .statusStep 0 {},
   .statusStep 0 {}]

/-- Between the acknowledgement and the removal of its lock the daemon writes to SQLite. -/
theorem sealed_flush : ∃ as app token a,
    (start Daemon.sampleConfig () []).run Daemon.sampleConfig as = some app ∧
    app.Sealed token ∧ app.writes a = true := by
  have hsome : ((start Daemon.sampleConfig () []).run Daemon.sampleConfig
      flushAgainActions).map (fun app : IngestApp Unit =>
        (decide (app.Sealed "t1".toList), app.writes (.statusStep 0 {}))) = some (true, true) := by
    decide +kernel
  obtain ⟨app, hrun, hfacts⟩ := Option.map_eq_some_iff.mp hsome
  simp only [Prod.mk.injEq] at hfacts
  exact ⟨_, app, _, _, hrun, of_decide_eq_true hfacts.1, hfacts.2⟩

end IngestApp

end RapidInbox

import RapidInbox.Ingest.StatusLoop

/-!
# Rejected recipients are counted once

A rejection that a session has counted is in the pending counter, in the hands of a flush, or in a
committed bucket.  `flushProtocol` follows the amount a flush holds; `Balanced` adds it up over all
threads that flush, and every step keeps the balance.
-/

namespace RapidInbox

open Conc

/-- The protocol of a flush; the ghost is the amount taken from the counter and not yet settled. -/
def flushProtocol : Protocol statusSig StatusState Nat where
  agrees s held := s.flushing = held
  pre op _ held :=
    match op with
    | .exchangePending => held = 0
    | .writeRejectedMetric _ count => count = held
    | .addPending count => count = held
    | _ => True
  post op held answer held' :=
    match op, answer with
    | .exchangePending, (taken : Nat) => held' = taken
    | .writeRejectedMetric _ _, committed => held' = bif committed then 0 else held
    | .addPending _, _ => held' = 0
    | _, _ => held' = held

namespace StatusLoop

variable {s : StatusState} {held : Nat}

/-- Nothing is held between two flushes. -/
def Settled (s : StatusState) (_ : Bool) (held : Nat) : Prop := s.flushing = held ∧ held = 0

/-- The weakest precondition for the flush protocol. -/
abbrev fwp {α : Type} (m : StatusM α) (Q : StatusState → α → Nat → Prop) (s : StatusState)
    (held : Nat) : Prop :=
  Act.wp flushProtocol m Q s held

theorem fwp_call (op : StatusOp) {Q : StatusState → op.Answer → Nat → Prop}
    (hagree : s.flushing = held) (hpre : flushProtocol.pre op s held)
    (hQ : ∀ r held', flushProtocol.post op held r held' → Q s r held') :
    fwp (call op) Q s held :=
  ⟨hagree, hpre, hQ⟩

/-- An operation that does not touch the counter. -/
theorem fwp_call_frame {op : StatusOp} {Q : StatusState → op.Answer → Nat → Prop}
    (hagree : s.flushing = held) (hpre : flushProtocol.pre op s held)
    (hpost : ∀ r held', flushProtocol.post op held r held' → held' = held)
    (hQ : ∀ r, Q s r held) : fwp (call op) Q s held := by
  refine fwp_call op hagree hpre ?_
  intro r held' hp
  rw [hpost r held' hp]
  exact hQ r

/-- What a flush takes it commits or gives back. -/
theorem fwp_flushRejectedMetrics {Q : StatusState → Bool → Nat → Prop} (hidle : s.flushing = 0)
    (hQ : ∀ s' r, s'.flushing = 0 → Q s' r 0) : fwp flushRejectedMetrics Q s 0 := by
  unfold flushRejectedMetrics
  simp only [Act.wp_bind, Act.wp_ite, Act.wp_pure, Act.wp_modify]
  refine fwp_call _ hidle rfl ?_
  intro pending held hheld
  obtain rfl : held = pending := hheld
  split
  · rename_i hzero
    rw [hzero]
    exact hQ s true hidle
  · refine fwp_call_frame rfl trivial (fun _ _ hp => hp) ?_
    intro now
    refine fwp_call _ rfl rfl ?_
    intro committed held' hheld'
    cases committed with
    | true =>
      obtain rfl : held' = 0 := hheld'
      exact hQ _ true rfl
    | false =>
      obtain rfl : held' = held := hheld'
      refine fwp_call _ rfl rfl ?_
      intro _ held'' hheld''
      obtain rfl : held'' = 0 := hheld''
      exact hQ _ false rfl

theorem fwp_acknowledgeDrained (token : Text) {Q : StatusState → Bool → Nat → Prop}
    (hidle : s.flushing = 0) (hQ : ∀ s' r, s'.flushing = 0 → Q s' r 0) :
    fwp (acknowledgeDrained token) Q s 0 := by
  unfold acknowledgeDrained
  simp only [Act.wp_bind, Act.wp_ite, Act.wp_pure, Act.wp_modify]
  refine fwp_flushRejectedMetrics hidle ?_
  intro s' flushed hs'
  split
  · exact hQ s' false hs'
  · refine fwp_call_frame hs' trivial (fun _ _ hp => hp) ?_
    intro _
    refine fwp_call_frame hs' trivial (fun _ _ hp => hp) ?_
    intro written
    split
    · exact hQ s' false hs'
    · exact hQ _ true hs'

theorem fwp_acknowledgeIfDrained (total : Nat) (token : Option Text)
    {Q : StatusState → Bool → Nat → Prop} (hidle : s.flushing = 0)
    (hQ : ∀ s' r, s'.flushing = 0 → Q s' r 0) : fwp (acknowledgeIfDrained total token) Q s 0 := by
  cases token with
  | none => exact hQ s true hidle
  | some token =>
    unfold acknowledgeIfDrained
    simp only [Act.wp_bind, Act.wp_get, Act.wp_ite, Act.wp_pure]
    split
    · exact fwp_acknowledgeDrained token hidle hQ
    · exact hQ s true hidle

theorem fwp_publish (token : Option Text) (hidle : s.flushing = 0) :
    fwp (call (.publishIngestStatus token)) Settled s 0 :=
  fwp_call_frame hidle trivial (fun _ _ hp => hp) fun _ => ⟨hidle, rfl⟩

theorem fwp_startWriter (hidle : s.flushing = 0) : fwp startWriter Settled s 0 := by
  unfold startWriter applyMaintenanceState
  simp only [Act.wp_bind, Act.wp_ite]
  refine fwp_call_frame hidle trivial (fun _ _ hp => hp) ?_
  intro maintenance
  refine fwp_call_frame hidle trivial (fun _ _ hp => hp) ?_
  intro _
  refine fwp_call_frame hidle trivial (fun _ _ hp => hp) ?_
  intro total
  split
  · cases maintenance.token with
    | none => exact fwp_publish none hidle
    | some token =>
      simp only [Act.wp_bind, Act.wp_ite, Act.wp_pure]
      refine fwp_acknowledgeDrained token hidle ?_
      intro s' acknowledged hs'
      split
      · exact ⟨hs', rfl⟩
      · exact fwp_publish (some token) hs'
  · exact fwp_publish maintenance.token hidle

theorem fwp_flushUnlessActive (maintenance : MaintenanceState) {rest : StatusM Bool}
    (hidle : s.flushing = 0) (hrest : ∀ s', s'.flushing = 0 → fwp rest Settled s' 0) :
    fwp (flushUnlessActive maintenance rest) Settled s 0 := by
  unfold flushUnlessActive
  simp only [Act.wp_bind, Act.wp_ite, Act.wp_pure]
  split
  · refine fwp_flushRejectedMetrics hidle ?_
    intro s' flushed hs'
    split
    · exact ⟨hs', rfl⟩
    · exact hrest s' hs'
  · exact hrest s hidle

theorem fwp_reportStatus (total : Nat) (token : Option Text) (hidle : s.flushing = 0) :
    fwp (reportStatus total token) Settled s 0 := by
  unfold reportStatus
  simp only [Act.wp_bind, Act.wp_ite, Act.wp_pure, Act.wp_modify]
  have hend : ∀ s' : StatusState, s'.flushing = 0 →
      fwp (acknowledgeIfDrained total token) (fun s a g => if (!a) = true then Settled s true g
        else fwp (call (.publishIngestStatus token)) (fun s _ g => Settled s true g) s g) s' 0 := by
    intro s' hs'
    refine fwp_acknowledgeIfDrained total token hs' ?_
    intro s'' answered hs''
    split
    · exact ⟨hs'', rfl⟩
    · exact fwp_call_frame hs'' trivial (fun _ _ hp => hp) fun _ => ⟨hs'', rfl⟩
  split
  · exact hend _ hidle
  · exact hend s hidle

theorem fwp_statusTurn (hidle : s.flushing = 0) : fwp statusTurn Settled s 0 := by
  unfold statusTurn applyMaintenanceState
  simp only [Act.wp_bind, Act.wp_ite, Act.wp_pure]
  refine fwp_call_frame hidle trivial (fun _ _ hp => hp) ?_
  intro running
  split
  · exact ⟨hidle, rfl⟩
  · refine fwp_call_frame hidle trivial (fun _ _ hp => hp) ?_
    intro maintenance
    refine fwp_call_frame hidle trivial (fun _ _ hp => hp) ?_
    intro _
    refine fwp_call_frame hidle trivial (fun _ _ hp => hp) ?_
    intro total
    exact fwp_flushUnlessActive maintenance hidle fun s' hs' => fwp_reportStatus total _ hs'

theorem fwp_publishFinalIngestStatus (hidle : s.flushing = 0) :
    fwp publishFinalIngestStatus Settled s 0 := by
  unfold publishFinalIngestStatus applyMaintenanceState
  simp only [Act.wp_bind]
  refine fwp_call_frame hidle trivial (fun _ _ hp => hp) ?_
  intro maintenance
  refine fwp_call_frame hidle trivial (fun _ _ hp => hp) ?_
  intro _
  refine fwp_flushUnlessActive maintenance hidle ?_
  intro s' hs'
  unfold reportFinalStatus
  simp only [Act.wp_bind, Act.wp_ite, Act.wp_pure]
  refine fwp_call_frame hs' trivial (fun _ _ hp => hp) ?_
  intro total
  refine fwp_call_frame hs' trivial (fun _ _ hp => hp) ?_
  intro published
  split
  · exact ⟨hs', rfl⟩
  · exact fwp_acknowledgeIfDrained total maintenance.token hs' fun s'' _ hs'' => ⟨hs'', rfl⟩

end StatusLoop

/-- What a thread holds of the counter. -/
def StatusThread.Holds (t : StatusThread) (held : Nat) : Prop :=
  match t.prog? with
  | some prog => prog.Follows flushProtocol StatusLoop.Settled held
  | none => held = 0

/-- The amount in the hands of a thread's flush. -/
def StatusThread.flushing (t : StatusThread) : Nat :=
  ((t.prog?.bind (·.state?)).map (·.flushing)).getD 0

theorem StatusThread.Holds.flushing_eq {t : StatusThread} {held : Nat} (h : t.Holds held) :
    t.flushing = held := by
  unfold StatusThread.Holds at h
  unfold StatusThread.flushing
  cases hp : t.prog? with
  | none =>
    rw [hp] at h
    exact h.symm
  | some prog =>
    rw [hp] at h
    cases prog with
    | ret s r => exact h.1
    | fault => exact h.elim
    | call s op k => exact h.1

@[simp] theorem rejectedTotal_addRejected (bucketTs count : Nat) (buckets : List (Nat × Nat)) :
    rejectedTotal (addRejected bucketTs count buckets) = rejectedTotal buckets + count := by
  induction buckets with
  | nil => simp [rejectedTotal, addRejected]
  | cons bucket rest ih =>
    obtain ⟨ts, rejected⟩ := bucket
    simp only [rejectedTotal] at ih
    unfold addRejected
    split
    · simp [rejectedTotal]
      omega
    · simp [rejectedTotal, ih]
      omega

namespace IngestApp

variable {D : Type} {C : DaemonConfig D} {app app' : IngestApp D} {total : Nat}

/-- The rejections counted, above what the buckets held at the start. -/
def Balanced (total : Nat) (app : IngestApp D) : Prop :=
  ∃ helds, List.Forall₂ StatusThread.Holds app.status helds ∧
    rejectedTotal app.rejectedBuckets + app.rejectedPending + helds.sum = total + app.counted

/-- One operation of a flush keeps the balance. -/
theorem performStatus_balance (app : IngestApp D) (env : StatusEnv) {op : StatusOp} {s : StatusState} {held : Nat}
    (hpre : flushProtocol.pre op s held) :
    ∃ held', flushProtocol.post op held (app.performStatus env op).1 held' ∧
      (app.performStatus env op).2.status = app.status ∧
      (app.performStatus env op).2.counted = app.counted ∧
      rejectedTotal (app.performStatus env op).2.rejectedBuckets +
          (app.performStatus env op).2.rejectedPending + held' =
        rejectedTotal app.rejectedBuckets + app.rejectedPending + held := by
  cases op with
  | exchangePending =>
    obtain rfl : held = 0 := hpre
    exact ⟨app.rejectedPending, rfl, rfl, rfl, rfl⟩
  | writeRejectedMetric timestamp count =>
    obtain rfl : count = held := hpre
    simp only [performStatus]
    split
    · exact ⟨count, rfl, rfl, rfl, rfl⟩
    · refine ⟨0, rfl, rfl, rfl, ?_⟩
      simp only [rejectedTotal_addRejected]
      omega
  | addPending count =>
    obtain rfl : count = held := hpre
    exact ⟨0, rfl, rfl, rfl, by simp only [performStatus]; omega⟩
  | writeMaintenanceDrained token =>
    cases hw : env.write <;> exact ⟨held, rfl, by simp [performStatus, hw],
      by simp [performStatus, hw], by simp [performStatus, hw]⟩
  | statusRunning => exact ⟨held, rfl, rfl, rfl, rfl⟩
  | maintenanceState => exact ⟨held, rfl, rfl, rfl, rfl⟩
  | setReservationsPaused paused => exact ⟨held, rfl, rfl, rfl, rfl⟩
  | queueTotalMessages => exact ⟨held, rfl, rfl, rfl, rfl⟩
  | utcNow => exact ⟨held, rfl, rfl, rfl, rfl⟩
  | releaseSqliteSession => exact ⟨held, rfl, rfl, rfl, rfl⟩
  | publishIngestStatus token => exact ⟨held, rfl, rfl, rfl, rfl⟩

theorem holds_withProg {t : StatusThread} {prog prog' : Prog statusSig StatusState Bool}
    (ht : t.prog? = some prog) {held : Nat}
    (h : prog'.Follows flushProtocol StatusLoop.Settled held) : (t.withProg prog').Holds held := by
  cases t with
  | starting p => exact h
  | looping p => exact h
  | finishing p => exact h
  | exited => simp [StatusThread.prog?] at ht

theorem holds_next {t : StatusThread} {s : StatusState} {continues : Bool}
    (hidle : s.flushing = 0) : (t.next s continues).Holds 0 := by
  cases t with
  | starting p =>
    cases continues with
    | true => exact StatusLoop.fwp_statusTurn hidle
    | false => rfl
  | looping p =>
    cases continues with
    | true => exact StatusLoop.fwp_statusTurn hidle
    | false => exact StatusLoop.fwp_publishFinalIngestStatus hidle
  | finishing p => rfl
  | exited => rfl

/-- The step lemma: a rejection moves between counter, flush and bucket, and only a session adds
    one. -/
theorem Balanced.step {a : Action} (h : Balanced total app) (hstep : app.step C a = some app') :
    Balanced total app' := by
  obtain ⟨helds, hholds, hsum⟩ := h
  cases a with
  | daemon a readFails =>
    simp only [IngestApp.step] at hstep
    obtain ⟨b, -, hb⟩ := Option.bind_eq_some_iff.mp hstep
    obtain ⟨j, -, rfl⟩ := Option.map_eq_some_iff.mp hb
    refine ⟨helds, hholds, ?_⟩
    simp only
    omega
  | statusStep i env =>
    simp only [IngestApp.step] at hstep
    split at hstep
    · cases hstep
    · rename_i t hget
      obtain ⟨held, hheld, ht⟩ := hholds.getElem?_left hget
      obtain ⟨hi, hval⟩ := List.getElem?_eq_some_iff.mp hheld
      split at hstep
      · rename_i s op k hprog
        cases hstep
        have hfollows : (Prog.call s op k).Follows flushProtocol StatusLoop.Settled held := by
          unfold StatusThread.Holds at ht
          rwa [hprog] at ht
        obtain ⟨held', hpost, hstatus, hcounted, hbalance⟩ :=
          performStatus_balance app env hfollows.2.1
        refine ⟨helds.set i held', hholds.set i ?_, ?_⟩
        · exact holds_withProg hprog (hfollows.2.2 _ held' hpost)
        · obtain ⟨before, after, heq, hset, -⟩ := List.focus_getElem? hheld
          rw [heq] at hsum
          simp only [hset, hcounted, List.sum_append, List.sum_cons] at hsum ⊢
          omega
      · rename_i s continues hprog
        cases hstep
        have hsettled : StatusLoop.Settled s continues held := by
          unfold StatusThread.Holds at ht
          rwa [hprog] at ht
        obtain ⟨hidle, rfl⟩ := hsettled
        refine ⟨helds.set i 0, hholds.set i (holds_next hidle), ?_⟩
        rw [← hval, List.set_getElem_self]
        exact hsum
      · cases hstep
  | stopStatus =>
    cases hstep
    exact ⟨helds, hholds, hsum⟩
  | createLock =>
    simp only [IngestApp.step] at hstep
    split at hstep
    · cases hstep
      exact ⟨helds, hholds, hsum⟩
    · cases hstep
  | publishToken token =>
    simp only [IngestApp.step] at hstep
    split at hstep
    · cases hstep
      exact ⟨helds, hholds, hsum⟩
    · cases hstep
  | removeLock =>
    cases hstep
    exact ⟨helds, hholds, hsum⟩

/-- The run lemma. -/
theorem Balanced.run {as : List Action} (h : Balanced total app) (hrun : app.run C as = some app') :
    Balanced total app' :=
  Transition.run_invariant (fun _ _ _ hb hstep => Balanced.step hb hstep) h hrun

/-- Where the counted rejections are. -/
structure RejectionsConserved (buckets : List (Nat × Nat)) (app : IngestApp D) : Prop where
  /-- Committed, pending, or held by a flush in progress. -/
  balance : rejectedTotal app.rejectedBuckets + app.rejectedPending +
    (app.status.map (·.flushing)).sum = rejectedTotal buckets + app.counted
  /-- Without a flush in progress, committed or pending. -/
  settled : (∀ t ∈ app.status, t.flushing = 0) →
    rejectedTotal app.rejectedBuckets + app.rejectedPending = rejectedTotal buckets + app.counted

theorem flushing_eq_helds {ts : List StatusThread} {helds : List Nat}
    (h : List.Forall₂ StatusThread.Holds ts helds) : ts.map (·.flushing) = helds := by
  induction h with
  | nil => rfl
  | cons ht _ ih => rw [List.map_cons, ht.flushing_eq, ih]

theorem Balanced.conserved {buckets : List (Nat × Nat)} (h : Balanced (rejectedTotal buckets) app) :
    app.RejectionsConserved buckets := by
  obtain ⟨helds, hholds, hsum⟩ := h
  rw [← flushing_eq_helds hholds] at hsum
  refine ⟨hsum, ?_⟩
  intro hnone
  have hzero : (app.status.map (·.flushing)).sum = 0 := by
    rw [List.sum_eq_zero_iff_forall_eq_nat]
    intro n hn
    obtain ⟨t, ht, rfl⟩ := List.mem_map.mp hn
    exact hnone t ht
  omega

/-- In every run, with any number of threads that flush at start, in the loop and at the end, every
    counted rejection is committed, pending or held by one flush, exactly once. -/
theorem rejections_conserved (C : DaemonConfig D) (db : D) (buckets : List (Nat × Nat))
    (threads : Nat) (as : List Action) (app : IngestApp D)
    (hrun : { start C db buckets with
      status := List.replicate threads (.starting (StatusLoop.startWriter {})) }.run C as =
        some app) : app.RejectionsConserved buckets := by
  refine Balanced.conserved (Balanced.run ?_ hrun)
  refine ⟨List.replicate threads 0, ?_, ?_⟩
  · clear hrun
    induction threads with
    | zero => exact .nil
    | succ n ih => exact .cons (StatusLoop.fwp_startWriter rfl) ih
  · simp [start]

/-- A session whose recipient is refused while two threads flush: the first commits, the commit of
    the second fails. -/
def rejectionActions : List Action :=
  [.daemon (.connect Daemon.sampleRules "192.0.2.1".toList "smtp_1".toList) false,
   .daemon (.line 0 (Json.ascii "MAIL FROM:<>".toList)) false, .daemon (.sessionStep 0 {}) false,
   .daemon (.line 0 (Json.ascii "RCPT TO:<u@other.com>".toList)) false,
   .daemon (.sessionStep 0 {}) false,
   .statusStep 0 {}, .statusStep 0 {}, .statusStep 0 {}, .statusStep 0 {}, .statusStep 0 {},
   .statusStep 0 {}, .statusStep 0 {}, .statusStep 0 {}, .statusStep 0 {}, .statusStep 0 {},
   .statusStep 0 {},
   .daemon (.line 0 (Json.ascii "RCPT TO:<v@other.com>".toList)) false,
   .daemon (.sessionStep 0 {}) false,
   .statusStep 1 {}, .statusStep 1 {}, .statusStep 1 {}, .statusStep 1 {}, .statusStep 1 {},
   .statusStep 1 {}, .statusStep 1 {}, .statusStep 1 {}, .statusStep 1 {}, .statusStep 1 {},
   .statusStep 1 {}, .statusStep 1 { commitFails := true }, .statusStep 0 {}]

theorem rejections_conserved_sample : ∃ app,
    { start Daemon.sampleConfig () [] with
      status := List.replicate 2 (.starting (StatusLoop.startWriter {})) }.run
        Daemon.sampleConfig rejectionActions = some app ∧
    app.counted = 2 ∧ app.rejectedBuckets = [(0, 1)] ∧ app.rejectedPending = 0 ∧
    app.status.map (·.flushing) = [0, 1] ∧ app.RejectionsConserved [] := by
  have hsome : ({ start Daemon.sampleConfig () [] with
      status := List.replicate 2 (.starting (StatusLoop.startWriter {})) }.run
        Daemon.sampleConfig rejectionActions).map (fun app : IngestApp Unit =>
          (app.counted, app.rejectedBuckets, app.rejectedPending,
            app.status.map StatusThread.flushing)) = some (2, [(0, 1)], 0, [0, 1]) := by decide +kernel
  obtain ⟨app, hrun, hfacts⟩ := Option.map_eq_some_iff.mp hsome
  simp only [Prod.mk.injEq] at hfacts
  obtain ⟨hcounted, hbuckets, hpending, hflushing⟩ := hfacts
  exact ⟨app, hrun, hcounted, hbuckets, hpending, hflushing,
    rejections_conserved Daemon.sampleConfig () [] 2 rejectionActions app hrun⟩

end IngestApp

end RapidInbox

import RapidInbox.Db.WriterSlots
import Mathlib.Data.List.Nodup

/-!
# Runs of the writer

What holds of the actor in every run: the slot counter is exact, every placed request is settled once
and its operation runs at most once, the worker settles it after a bounded number of its own steps,
`_STOP` is placed at most once and with nothing owned, and a closed actor runs nothing.
-/

namespace RapidInbox

open Admission

namespace DatabaseWriter

variable {cfg : WriterConfig} {s s' : DatabaseWriter}

/-! ## Before the first submission -/

/-- Without a worker thread nobody has been admitted. -/
def Unstarted (s : DatabaseWriter) : Prop :=
  s.worker = .absent → s.adm = {} ∧ s.enqueued = []

theorem prepareStop_eq (s : DatabaseWriter) :
    ∃ flag due, s.prepareStop = { s with stopEnqueued := flag, stopDue := due } := by
  unfold prepareStop
  split
  · exact ⟨_, _, rfl⟩
  · exact ⟨s.stopEnqueued, s.stopDue, rfl⟩

theorem regrant_eq (cfg : WriterConfig) (s : DatabaseWriter) :
    ∃ adm flag due, s.regrant cfg = { s with adm := adm, stopEnqueued := flag, stopDue := due } := by
  unfold regrant
  obtain ⟨flag, due, h⟩ :=
    prepareStop_eq { s with adm := s.adm.grantWaiters cfg.queueCapacity (s.state = .opened) }
  exact ⟨_, flag, due, h⟩

theorem releaseCapacity_eq {s s₁ : DatabaseWriter} (h : releaseCapacity cfg s = some s₁) :
    ∃ adm flag due, s₁ = { s with adm := adm, stopEnqueued := flag, stopDue := due } := by
  unfold releaseCapacity at h
  split at h
  · cases h
  · obtain rfl := Option.some.inj h
    obtain ⟨adm, flag, due, heq⟩ :=
      regrant_eq cfg { s with adm := { s.adm with outstanding := s.adm.outstanding - 1 } }
    exact ⟨adm, flag, due, heq⟩

/-- The worker and its history are the worker's own; the others only append to `enqueued`. -/
structure Apart (s s' : DatabaseWriter) : Prop where
  worker : s'.worker = s.worker ∨ s.worker = .absent ∧ s'.worker = .idle
  resolved : s'.resolved = s.resolved
  ran : s'.ran = s.ran
  enqueued : s'.enqueued = s.enqueued ∨
    ∃ c, s'.enqueued = s.enqueued ++ [c] ∧ 0 < s.adm.admitted
  closed : s.state = .closed → s'.state = .closed ∧ s'.worker = s.worker

theorem Apart.of_frame {adm : Admission} {state : WriterState} {flag closed full : Bool}
    {due puts : Nat} {queue : List QueueItem} (hstate : s.state = .closed → state = .closed) :
    Apart s { s with adm := adm, state := state, stopEnqueued := flag, closed := closed,
                     fullRaised := full, stopDue := due, stopsPut := puts, queue := queue } :=
  ⟨.inl rfl, rfl, rfl, .inl rfl, fun h => ⟨hstate h, rfl⟩⟩

theorem Apart.of_regrant {adm : Admission} : Apart s (regrant cfg { s with adm := adm }) := by
  obtain ⟨adm', flag, due, heq⟩ := regrant_eq cfg { s with adm := adm }
  rw [heq]
  exact .of_frame id

theorem step_apart {action : Action} (hother : ∀ w, action ≠ .worker w)
    (hstep : s.step cfg action = some s') : Apart s s' := by
  cases action with
  | submit starts =>
    obtain rfl := Option.some.inj hstep
    unfold submit
    split
    · exact .of_frame id
    · rename_i hopen
      simp only [ne_eq, not_not] at hopen
      split
      · exact .of_frame fun _ => rfl
      · refine ⟨?_, rfl, rfl, .inl rfl, ?_⟩
        · dsimp only
          split
          · rename_i habsent
            exact .inr ⟨habsent, rfl⟩
          · exact .inl rfl
        · intro hclosed
          rw [hopen] at hclosed
          cases hclosed
  | scheduleGrant c =>
    obtain ⟨adm, -, rfl⟩ := Option.map_eq_some_iff.mp hstep
    exact .of_frame id
  | failGrant c =>
    obtain ⟨adm, -, rfl⟩ := Option.map_eq_some_iff.mp hstep
    exact .of_regrant
  | deliverGrant c =>
    obtain ⟨⟨adm, back⟩, -, rfl⟩ := Option.map_eq_some_iff.mp hstep
    cases back with
    | false => exact .of_frame id
    | true => exact .of_regrant
  | scheduleRejection c loopOpen =>
    obtain ⟨adm, -, rfl⟩ := Option.map_eq_some_iff.mp hstep
    exact .of_frame id
  | deliverRejection c =>
    obtain ⟨adm, -, rfl⟩ := Option.map_eq_some_iff.mp hstep
    exact .of_frame id
  | cancel c =>
    change s.cancel c = some s' at hstep
    unfold cancel at hstep
    split at hstep
    all_goals cases hstep
    all_goals exact .of_frame id
  | resume c =>
    obtain ⟨adm, -, rfl⟩ := Option.map_eq_some_iff.mp hstep
    exact .of_frame id
  | unwind c =>
    obtain ⟨adm, -, rfl⟩ := Option.map_eq_some_iff.mp hstep
    exact .of_regrant
  | dispatch c =>
    change s.dispatch cfg c = some s' at hstep
    unfold dispatch at hstep
    split at hstep
    · split at hstep
      · obtain ⟨adm, -, rfl⟩ := Option.map_eq_some_iff.mp hstep
        exact .of_frame id
      · obtain ⟨adm, -, rfl⟩ := Option.map_eq_some_iff.mp hstep
        obtain ⟨flag, due, heq⟩ :=
          prepareStop_eq { s with adm := { adm with outstanding := adm.outstanding - 1 } }
        rw [heq]
        exact .of_frame id
    · split at hstep
      · obtain ⟨adm, hmove, rfl⟩ := Option.map_eq_some_iff.mp hstep
        exact ⟨.inl rfl, rfl, rfl, .inr ⟨c, rfl, move_pos hmove rfl⟩, fun h => ⟨h, rfl⟩⟩
      · obtain ⟨adm, -, rfl⟩ := Option.map_eq_some_iff.mp hstep
        exact .of_frame id
  | drop c =>
    obtain ⟨adm, -, rfl⟩ := Option.map_eq_some_iff.mp hstep
    cases hrelease : releaseCapacity cfg { s with adm := adm } with
    | none => exact .of_frame id
    | some s₁ =>
      obtain ⟨adm', flag, due, rfl⟩ := releaseCapacity_eq hrelease
      exact .of_frame id
  | putStop =>
    change s.putStop cfg = some s' at hstep
    unfold putStop at hstep
    split at hstep
    · cases hstep
    · split at hstep <;> cases hstep <;> exact .of_frame id
  | close =>
    obtain rfl := Option.some.inj hstep
    unfold close
    split
    · exact .of_frame id
    · rename_i hopen
      have hnot : s.state ≠ .closed := fun hclosed => hopen (by simp [hclosed])
      dsimp only
      split
      · split <;> exact .of_frame fun h => absurd h hnot
      · exact .of_frame fun h => absurd h hnot
  | worker w => exact absurd rfl (hother w)

/-- What a worker step leaves alone, and that it settles at most one request. -/
structure Worked (s s' : DatabaseWriter) : Prop where
  started : s.worker ≠ .absent
  worker : s'.worker ≠ .absent
  enqueued : s'.enqueued = s.enqueued
  resolved : s'.resolved = s.resolved ∨ ∃ c, s'.resolved = s.resolved ++ [c]

theorem workerStep_worked {action : WorkerAction} (hstep : s.workerStep cfg action = some s') :
    Worked s s' := by
  unfold workerStep at hstep
  split at hstep
  · rename_i hw
    split at hstep
    · cases hstep
    · obtain rfl := Option.some.inj hstep
      exact ⟨by simp [hw], by simp, rfl, .inl rfl⟩
    · obtain rfl := Option.some.inj hstep
      exact ⟨by simp [hw], by dsimp only; split <;> nofun, rfl, .inl rfl⟩
  · rename_i hw
    obtain rfl := Option.some.inj hstep
    exact ⟨by simp [hw], by simp, rfl, .inl rfl⟩
  · rename_i c opens hw
    obtain rfl := Option.some.inj hstep
    cases opens with
    | true => exact ⟨by simp [hw], by simp, rfl, .inl rfl⟩
    | false => exact ⟨by simp [hw], by simp [settle], rfl, .inr ⟨c, rfl⟩⟩
  · rename_i c applies hw
    obtain rfl := Option.some.inj hstep
    cases applies <;> exact ⟨by simp [hw], by simp, rfl, .inl rfl⟩
  · rename_i c succeeds hw
    obtain rfl := Option.some.inj hstep
    cases succeeds with
    | true => exact ⟨by simp [hw], by simp [settle], rfl, .inr ⟨c, rfl⟩⟩
    | false => exact ⟨by simp [hw], by simp, rfl, .inl rfl⟩
  · rename_i c outcome hw
    obtain rfl := Option.some.inj hstep
    cases outcome with
    | done => exact ⟨by simp [hw], by simp [settle], rfl, .inr ⟨c, rfl⟩⟩
    | sqliteError => exact ⟨by simp [hw], by simp [settle], rfl, .inr ⟨c, rfl⟩⟩
    | otherError => exact ⟨by simp [hw], by simp, rfl, .inl rfl⟩
  · rename_i c raising hw
    obtain rfl := Option.some.inj hstep
    split
    · rename_i s₁ hrelease
      obtain ⟨adm, flag, due, rfl⟩ := releaseCapacity_eq hrelease
      exact ⟨by simp [hw], by dsimp only; split <;> nofun, rfl, .inl rfl⟩
    · exact ⟨by simp [hw], by simp, rfl, .inl rfl⟩
  · rename_i active hw
    obtain rfl := Option.some.inj hstep
    exact ⟨by simp [hw], by simp, rfl, .inl rfl⟩
  · rename_i active hw
    obtain rfl := Option.some.inj hstep
    cases active with
    | none => exact ⟨by simp [hw], by simp, rfl, .inl rfl⟩
    | some c =>
      dsimp only
      split
      · exact ⟨by simp [hw], by simp, rfl, .inl rfl⟩
      · exact ⟨by simp [hw], by simp [settle], rfl, .inr ⟨c, rfl⟩⟩
  · rename_i hw
    split at hstep
    · obtain rfl := Option.some.inj hstep
      exact ⟨by simp [hw], by simp, rfl, .inl rfl⟩
    · obtain rfl := Option.some.inj hstep
      exact ⟨by simp [hw], by simp [hw], rfl, .inl rfl⟩
    · rename_i c rest hqueue
      obtain rfl := Option.some.inj hstep
      exact ⟨by simp [hw], by simp [settle], rfl, .inr ⟨c, rfl⟩⟩
  · rename_i hw
    obtain rfl := Option.some.inj hstep
    split
    · rename_i s₁ hrelease
      obtain ⟨adm, flag, due, rfl⟩ := releaseCapacity_eq hrelease
      exact ⟨by simp [hw], by simp, rfl, .inl rfl⟩
    · exact ⟨by simp [hw], by simp, rfl, .inl rfl⟩
  · rename_i closes hw
    obtain rfl := Option.some.inj hstep
    split <;> exact ⟨by simp [hw], by simp, rfl, .inl rfl⟩
  · cases hstep

/-- Admission without a call has nothing to do. -/
theorem Unstarted.step (h : Unstarted s) {action : Action} (hstep : s.step cfg action = some s') :
    Unstarted s' := by
  intro habsent'
  by_cases hworker : ∃ w, action = .worker w
  · obtain ⟨w, rfl⟩ := hworker
    exact absurd habsent' (workerStep_worked hstep).worker
  · push Not at hworker
    have hapart := step_apart hworker hstep
    have habsent : s.worker = .absent := by
      rcases hapart.worker with hw | ⟨hw, -⟩
      · exact hw.symm.trans habsent'
      · exact hw
    obtain ⟨hadm, hnone⟩ := h habsent
    have henqueued : s'.enqueued = [] := by
      rcases hapart.enqueued with he | ⟨c, -, hpos⟩
      · exact he.trans hnone
      · rw [hadm] at hpos
        exact absurd hpos (by decide)
    refine ⟨?_, henqueued⟩
    cases action with
    | submit starts =>
      obtain rfl := Option.some.inj hstep
      unfold submit at habsent' ⊢
      split
      · exact hadm
      · split
        · exact hadm
        · rename_i hopen hstarts
          rw [if_neg hopen, if_neg hstarts] at habsent'
          simp [habsent] at habsent'
    | close =>
      obtain rfl := Option.some.inj hstep
      unfold close
      split
      · exact hadm
      · dsimp only
        split
        · simp [hadm, rejectWaiters, rejectLoop]
        · simp [hadm, rejectWaiters, rejectLoop]
    | putStop =>
      change s.putStop cfg = some s' at hstep
      unfold putStop at hstep
      split at hstep
      · cases hstep
      · split at hstep <;> cases hstep <;> exact hadm
    | worker w => exact absurd rfl (hworker w)
    | scheduleGrant c => simp [DatabaseWriter.step, hadm, Admission.scheduleGrant] at hstep
    | failGrant c => simp [DatabaseWriter.step, hadm, Admission.failGrant] at hstep
    | deliverGrant c => simp [DatabaseWriter.step, hadm, Admission.deliverGrant] at hstep
    | scheduleRejection c loopOpen =>
      simp [DatabaseWriter.step, hadm, Admission.scheduleRejection] at hstep
    | deliverRejection c => simp [DatabaseWriter.step, hadm, Admission.deliverRejection] at hstep
    | cancel c => simp [DatabaseWriter.step, hadm, DatabaseWriter.cancel] at hstep
    | resume c => simp [DatabaseWriter.step, hadm, Admission.resume] at hstep
    | unwind c => simp [DatabaseWriter.step, hadm, DatabaseWriter.unwind, Admission.move] at hstep
    | dispatch c => simp [DatabaseWriter.step, hadm, DatabaseWriter.dispatch, Admission.move] at hstep
    | drop c => simp [DatabaseWriter.step, hadm, DatabaseWriter.drop, Admission.move] at hstep

/-! ## Progress -/

/-- How many steps the worker is away from settling its next request, at most. -/
@[simp] def rank : WriterPhase → Nat
  | .releasing _ _ => 6
  | .idle => 5
  | .opening _ | .fatal _ => 4
  | .starting _ | .failingActive _ | .releasingFailed => 3
  | .running _ | .failing => 2
  | .failed _ | .finishing => 1
  | .absent | .exited => 0

/-- A bound for the steps of the worker until the request at position `p` of `enqueued` is settled. -/
def remaining (s : DatabaseWriter) (p : Nat) : Nat :=
  6 * (p + 1 - s.resolved.length) + rank s.worker

theorem remaining_settle {c p : Nat} {w : WriterPhase} (hp : s.resolved.length ≤ p)
    (hrank : rank w < rank s.worker + 6) : remaining (s.settle c w) p < remaining s p := by
  unfold remaining settle
  simp only [List.length_append, List.length_singleton]
  omega

/-- A worker step comes closer to settling a request that is not settled. -/
theorem Sound.remaining_lt (h : Sound cfg s) {p : Nat} (hp : s.resolved.length ≤ p)
    (hlt : p < s.enqueued.length) {action : WorkerAction} (hclean : Clean action)
    (hstep : s.workerStep cfg action = some s') : remaining s' p < remaining s p := by
  have hsettled := congrArg List.length h.settled
  simp only [List.length_append] at hsettled
  unfold DatabaseWriter.workerStep at hstep
  split at hstep
  -- take
  · rename_i hw
    split at hstep
    · cases hstep
    · obtain rfl := Option.some.inj hstep
      simp [remaining, hw]
    · obtain rfl := Option.some.inj hstep
      cases s.connected <;> simp [remaining, hw]
  -- takeFails
  · rename_i hw
    obtain rfl := Option.some.inj hstep
    simp [remaining, hw]
  -- openConnection
  · rename_i c opens hw
    obtain rfl := Option.some.inj hstep
    cases opens with
    | true => simp [remaining, hw]
    | false => exact remaining_settle hp (by simp [hw])
  -- applyPragmas
  · rename_i c applies hw
    obtain rfl := Option.some.inj hstep
    cases applies <;> simp [remaining, hw]
  -- runOperation
  · rename_i c succeeds hw
    obtain rfl := Option.some.inj hstep
    cases succeeds with
    | true => exact remaining_settle hp (by simp [hw])
    | false => simp [remaining, hw]
  -- rollback
  · rename_i c outcome hw
    obtain rfl := Option.some.inj hstep
    cases outcome with
    | done => exact remaining_settle hp (by simp [hw])
    | sqliteError =>
      exact remaining_settle (s := { s with connected := false }) hp (by simp [hw])
    | otherError => exact absurd rfl hclean
  -- release
  · rename_i c raising hw
    obtain rfl := Option.some.inj hstep
    split
    · rename_i s₁ hrelease
      obtain ⟨adm, flag, due, rfl⟩ := releaseCapacity_eq hrelease
      cases raising <;> simp [remaining, hw]
    · simp [remaining, hw]
  -- beginFatalShutdown
  · rename_i active hw
    obtain rfl := Option.some.inj hstep
    simp [remaining, hw, DatabaseWriter.beginFatalShutdown]
  -- failActive
  · rename_i active hw
    obtain rfl := Option.some.inj hstep
    cases active with
    | none => simp [remaining, hw]
    | some c =>
      dsimp only
      split
      · simp [remaining, hw]
      · exact remaining_settle hp (by simp [hw])
  -- failOwned
  · rename_i hw
    split at hstep
    · obtain rfl := Option.some.inj hstep
      simp [remaining, hw]
    · -- with `_STOP` in the queue every request is settled
      rename_i rest hqueue
      have hcount := h.stopQueued
      rw [hqueue, List.count_cons_self] at hcount
      have hzero := (h.stopped (by omega)).2.2
      have howed := h.owed
      have hle := owed_le s.adm
      simp only [hw, WriterPhase.active, List.length_nil] at hsettled
      omega
    · obtain rfl := Option.some.inj hstep
      rename_i c rest hqueue
      exact remaining_settle (s := { s with queue := rest }) hp (by simp [hw])
  -- release of a failed request
  · rename_i hw
    obtain rfl := Option.some.inj hstep
    split
    · rename_i s₁ hrelease
      obtain ⟨adm, flag, due, rfl⟩ := releaseCapacity_eq hrelease
      simp [remaining, hw]
    · simp [remaining, hw]
  -- finish
  · rename_i closes hw
    have hqueued := congrArg List.length (h.drained (.inl hw))
    simp only [hw, WriterPhase.active, List.length_nil] at hsettled hqueued
    omega
  · cases hstep

/-- As long as a request is not settled, the worker has a step to take. -/
theorem Sound.worker_enabled (h : Sound cfg s) (hu : Unstarted s) {p : Nat}
    (hp : s.resolved.length ≤ p) (hlt : p < s.enqueued.length) :
    ∃ action s', Clean action ∧ s.workerStep cfg action = some s' := by
  have hsettled := congrArg List.length h.settled
  simp only [List.length_append] at hsettled
  cases hw : s.worker with
  | absent =>
    rw [(hu hw).2] at hlt
    cases hlt
  | idle =>
    cases hqueue : s.queue with
    | nil =>
      simp only [hw, WriterPhase.active, queued, hqueue, requests, List.filterMap_nil,
        List.length_nil] at hsettled
      omega
    | cons item rest =>
      cases item <;> exact ⟨.take, _, by simp [Clean], by simp [DatabaseWriter.workerStep, hw, hqueue]; rfl⟩
  | opening c => exact ⟨.openConnection true, _, by simp [Clean], by simp [DatabaseWriter.workerStep, hw]; rfl⟩
  | starting c => exact ⟨.applyPragmas true, _, by simp [Clean], by simp [DatabaseWriter.workerStep, hw]; rfl⟩
  | running c => exact ⟨.runOperation true, _, by simp [Clean], by simp [DatabaseWriter.workerStep, hw]; rfl⟩
  | failed c => exact ⟨.rollback .done, _, by simp [Clean], by simp [DatabaseWriter.workerStep, hw]; rfl⟩
  | releasing c raising => exact ⟨.release, _, by simp [Clean], by simp [DatabaseWriter.workerStep, hw]; rfl⟩
  | fatal active => exact ⟨.beginFatalShutdown, _, by simp [Clean], by simp [DatabaseWriter.workerStep, hw]; rfl⟩
  | failingActive active => exact ⟨.failActive, _, by simp [Clean], by simp [DatabaseWriter.workerStep, hw]; rfl⟩
  | failing =>
    cases hqueue : s.queue with
    | nil => exact ⟨.failOwned, _, by simp [Clean], by simp [DatabaseWriter.workerStep, hw, hqueue]; rfl⟩
    | cons item rest =>
      cases item <;> exact ⟨.failOwned, _, by simp [Clean], by simp [DatabaseWriter.workerStep, hw, hqueue]; rfl⟩
  | releasingFailed => exact ⟨.release, _, by simp [Clean], by simp [DatabaseWriter.workerStep, hw]; rfl⟩
  | finishing =>
    have hqueued := congrArg List.length (h.drained (.inl hw))
    simp only [hw, WriterPhase.active, List.length_nil] at hsettled hqueued
    omega
  | exited =>
    have hqueued := congrArg List.length (h.drained (.inr hw))
    simp only [hw, WriterPhase.active, List.length_nil] at hsettled hqueued
    omega

/-! ## Whole runs -/

/-- Every action of the list meets the condition. -/
def CleanRun (actions : List Action) : Prop :=
  ∀ action ∈ actions, CleanAction action

instance (actions : List Action) : Decidable (CleanRun actions) :=
  haveI : DecidablePred CleanAction := fun action =>
    match action with
    | .worker w => inferInstanceAs (Decidable (w ≠ .rollback .otherError))
    | .submit _ | .scheduleGrant _ | .failGrant _ | .deliverGrant _ | .scheduleRejection _ _
    | .deliverRejection _ | .cancel _ | .resume _ | .unwind _ | .dispatch _ | .drop _ | .putStop
    | .close => isTrue trivial
  inferInstanceAs (Decidable (∀ action ∈ actions, CleanAction action))

/-- The action is a step of the worker thread. -/
def Action.isWorker : Action → Bool
  | .worker _ => true
  | _ => false

/-- The invariants of a run. -/
structure Reached (cfg : WriterConfig) (s : DatabaseWriter) : Prop where
  sound : Sound cfg s
  unstarted : Unstarted s

theorem Reached.step (h : Reached cfg s) {action : Action} (hclean : CleanAction action)
    (hstep : s.step cfg action = some s') : Reached cfg s' :=
  ⟨h.sound.step hclean hstep, h.unstarted.step hstep⟩

theorem reached_init : Reached cfg {} :=
  ⟨sound_init cfg, fun _ => ⟨rfl, rfl⟩⟩

/-- One step: what is settled stays settled, what is placed stays placed, and a worker step brings the
request at position `p` closer to its end. -/
theorem Reached.advance (h : Reached cfg s) {action : Action} (hclean : CleanAction action)
    (hstep : s.step cfg action = some s') {p : Nat} (hp : p < s.enqueued.length) :
    s.enqueued <+: s'.enqueued ∧ s.resolved.length ≤ s'.resolved.length ∧
      (s.resolved.length ≤ p →
        remaining s' p + (if action.isWorker then 1 else 0) ≤ remaining s p) := by
  by_cases hworker : ∃ w, action = .worker w
  · obtain ⟨w, rfl⟩ := hworker
    have hworked := workerStep_worked hstep
    refine ⟨hworked.enqueued ▸ List.prefix_refl _, ?_, fun hle => ?_⟩
    · rcases hworked.resolved with hr | ⟨c, hr⟩
      · exact hr ▸ Nat.le_refl _
      · rw [hr, List.length_append]
        omega
    · exact h.sound.remaining_lt hle hp hclean hstep
  · push Not at hworker
    have hapart := step_apart hworker hstep
    have hother : action.isWorker = false := by
      cases action <;> first | rfl | exact absurd rfl (hworker _)
    have hsame : s'.worker = s.worker := by
      rcases hapart.worker with hw | ⟨hw, -⟩
      · exact hw
      · rw [(h.unstarted hw).2] at hp
        cases hp
    refine ⟨?_, hapart.resolved ▸ Nat.le_refl _, fun _ => ?_⟩
    · rcases hapart.enqueued with he | ⟨c, he, -⟩
      · exact he ▸ List.prefix_refl _
      · exact he ▸ List.prefix_append _ _
    · simp [remaining, hapart.resolved, hsame, hother]

/-- The worker settles a placed request within a number of its own steps. -/
theorem Reached.settles_within {more : List Action} (h : Reached cfg s) (hclean : CleanRun more)
    (hrun : s.run cfg more = some s') {p : Nat} (hp : p < s.enqueued.length)
    (hsteps : remaining s p ≤ more.countP Action.isWorker) :
    p < s'.resolved.length ∧ s.enqueued <+: s'.enqueued := by
  -- once settled it stays so; until then every worker step counts
  suffices hinv : (p < s.resolved.length ∨ remaining s p ≤ more.countP Action.isWorker) →
      p < s'.resolved.length ∧ s.enqueued <+: s'.enqueued from hinv (.inr hsteps)
  clear hsteps
  induction more generalizing s with
  | nil =>
    obtain rfl := Option.some.inj hrun
    intro hor
    refine ⟨?_, List.prefix_refl _⟩
    rcases hor with hlt | hle
    · exact hlt
    · simp only [remaining, List.countP_nil, Nat.le_zero_eq] at hle
      omega
  | cons action more ih =>
    obtain ⟨s₁, hs₁, hrest⟩ := Option.bind_eq_some_iff.mp hrun
    obtain ⟨hfirst, hmore⟩ := List.forall_mem_cons.mp hclean
    obtain ⟨hqueued, hgrow, hcloser⟩ := h.advance hfirst hs₁ hp
    have hp₁ : p < s₁.enqueued.length := Nat.lt_of_lt_of_le hp hqueued.length_le
    intro hor
    have hor₁ : p < s₁.resolved.length ∨ remaining s₁ p ≤ more.countP Action.isWorker := by
      rcases hor with hlt | hle
      · exact .inl (Nat.lt_of_lt_of_le hlt hgrow)
      · by_cases hdone : p < s.resolved.length
        · exact .inl (Nat.lt_of_lt_of_le hdone hgrow)
        · have hstep := hcloser (Nat.le_of_not_lt hdone)
          rw [List.countP_cons] at hle
          exact .inr (by omega)
    obtain ⟨hend, hpre⟩ := ih (h.step hfirst hs₁) hmore hrest hp₁ hor₁
    exact ⟨hend, hqueued.trans hpre⟩

/-- The requests are settled in the order in which they were placed, each once. -/
theorem Sound.resolved_prefix (h : Sound cfg s) : s.resolved <+: s.enqueued := by
  rw [h.settled, List.append_assoc]
  exact List.prefix_append _ _

theorem Sound.count_resolved (h : Sound cfg s) {c : Nat} (hc : c ∈ s.resolved) :
    s.resolved.count c = 1 :=
  List.count_eq_one_of_mem (h.resolved_prefix.sublist.nodup h.nodup) hc

/-- A closed actor runs no operation. -/
def Retired (ran : List Nat) (s : DatabaseWriter) : Prop :=
  (s.worker = .absent ∨ s.worker = .exited) ∧ s.state = .closed ∧ s.ran = ran

theorem Retired.step {ran : List Nat} (h : Retired ran s) {action : Action}
    (hstep : s.step cfg action = some s') : Retired ran s' := by
  obtain ⟨hw, hstate, hran⟩ := h
  by_cases hworker : ∃ w, action = .worker w
  · obtain ⟨w, rfl⟩ := hworker
    change s.workerStep cfg w = some s' at hstep
    unfold workerStep at hstep
    rcases hw with hw | hw <;> simp [hw] at hstep
  · push Not at hworker
    have hapart := step_apart hworker hstep
    obtain ⟨hstate', hw'⟩ := hapart.closed hstate
    exact ⟨hw' ▸ hw, hstate', hapart.ran.trans hran⟩

/-- What the actor promises in a state. -/
structure Accounted (cfg : WriterConfig) (s : DatabaseWriter) : Prop where
  /-- The counter is what is granted, admitted, queued and in the worker's hands. -/
  slots : s.adm.outstanding = s.adm.granted + s.adm.admitted + s.queued.length + s.worker.owns
  nonneg : 0 ≤ s.adm.outstanding
  bounded : s.adm.outstanding ≤ cfg.queueCapacity
  notFull : s.fullRaised = false
  /-- A placed request is settled, or still to be. -/
  settledOnce : ∀ c ∈ s.enqueued,
    s.resolved.count c + s.worker.active.count c + s.queued.count c = 1
  /-- As long as it is not settled, the worker can go on. -/
  enabled : ∀ c ∈ s.enqueued, c ∉ s.resolved →
    ∃ action s', Clean action ∧ s.workerStep cfg action = some s'
  /-- It is settled, and once, when the worker has gone on for long enough. -/
  settles : ∀ c ∈ s.enqueued, ∃ steps, ∀ more s', CleanRun more → s.run cfg more = some s' →
    steps ≤ more.countP Action.isWorker → s'.resolved.count c = 1
  ranOnce : s.ran.Nodup
  stopOnce : s.stopsPut + s.stopDue ≤ 1
  /-- A thread that is about to place `_STOP` does so with nothing owned. -/
  stopUnowned : 0 < s.stopDue → s.adm.outstanding = 0 ∧ s.adm.granted = 0 ∧ s.adm.admitted = 0 ∧
    s.queued = [] ∧ s.worker.owns = 0
  /-- When `close` returns, every placed request is settled and no operation runs any more. -/
  afterClose : s.closed = true → (∀ c ∈ s.enqueued, s.resolved.count c = 1) ∧
    ∀ more s', s.run cfg more = some s' → s'.ran = s.ran

theorem Reached.accounted (h : Reached cfg s) : Accounted cfg s := by
  have hs := h.sound
  have howed := hs.owed
  unfold Admission.owed at howed
  refine ⟨by omega, hs.outstanding_nonneg, hs.bounded, hs.notFull, ?_, ?_, ?_, ?_, ?_, ?_, ?_⟩
  · intro c hc
    have hcount := List.count_eq_one_of_mem hs.nodup hc
    rw [hs.settled, List.count_append, List.count_append] at hcount
    exact hcount
  · intro c hc hnot
    obtain ⟨p, hp, rfl⟩ := List.getElem_of_mem hc
    refine hs.worker_enabled h.unstarted (p := p) ?_ hp
    by_contra hlt
    apply hnot
    rw [← hs.resolved_prefix.getElem (by omega)]
    exact List.getElem_mem _
  · intro c hc
    obtain ⟨p, hp, rfl⟩ := List.getElem_of_mem hc
    refine ⟨remaining s p, fun more s' hclean hrun hsteps => ?_⟩
    obtain ⟨hlt, hqueued⟩ := h.settles_within hclean hrun hp hsteps
    have h' : Reached cfg s' := Transition.run_invariant_along
      (P := fun _ action => CleanAction action)
      (fun _ _ _ hinv hcl hst => Reached.step hinv hcl hst) h
      (Transition.along_of_forall fun action ha _ => hclean action ha) hrun
    refine h'.sound.count_resolved ?_
    have hsame : s'.resolved[p] = s.enqueued[p] := by
      rw [h'.sound.resolved_prefix.getElem hlt, hqueued.getElem hp]
    rw [← hsame]
    exact List.getElem_mem _
  · have hsub : List.Sublist (s.resolved ++ s.worker.started) s.enqueued := by
      rw [hs.settled, List.append_assoc]
      refine List.Sublist.append_left ?_ _
      refine List.Sublist.trans ?_ (List.sublist_append_left _ _)
      cases s.worker <;> simp
    exact (hs.ran.trans hsub).nodup hs.nodup
  · have hstops := hs.stops
    omega
  · intro hdue
    have hzero := (hs.stopped (by omega)).2.2
    refine ⟨hzero, by omega, by omega, List.eq_nil_of_length_eq_zero (by omega), by omega⟩
  · intro hclosed
    obtain ⟨hw, hstate⟩ := hs.closed hclosed
    refine ⟨?_, fun more s' hrun => ?_⟩
    · intro c hc
      apply hs.count_resolved
      have hsettled := hs.settled
      rcases hw with hw | hw
      · rw [(h.unstarted hw).2] at hc
        cases hc
      · rw [hw, hs.drained (.inr hw)] at hsettled
        simpa [hsettled] using hc
    · have hretired : Retired s.ran s' := Transition.run_invariant
        (fun _ _ _ hinv hst => Retired.step hinv hst) ⟨hw, hstate, rfl⟩ hrun
      exact hretired.2.2

/-- In every run in which no rollback raises anything but an `sqlite3.Error`, the actor keeps its
promises in every state. -/
theorem clean_runs_accounted (cfg : WriterConfig) (actions : List Action) (s : DatabaseWriter)
    (hclean : CleanRun actions) (hrun : run cfg {} actions = some s) : Accounted cfg s := by
  have hreached : Reached cfg s := Transition.run_invariant_along
    (P := fun _ action => CleanAction action)
    (fun _ _ _ hinv hcl hst => Reached.step hinv hcl hst) reached_init
    (Transition.along_of_forall fun action ha _ => hclean action ha) hrun
  exact hreached.accounted


def twoSlots : WriterConfig :=
  ⟨2, 1, Nat.two_pos, Nat.one_pos⟩

/-- Two callers take the slots and a third waits; the first operation fails and is rolled back, the
waiter gets its slot, a close drains the queue and the worker stops. -/
def drainedRun : List Action :=
  [.submit true, .submit true, .submit true, .dispatch 0, .dispatch 1, .worker .take,
   .worker (.openConnection true), .worker (.applyPragmas true), .worker (.runOperation false),
   .worker (.rollback .done), .worker .release, .scheduleGrant 2, .deliverGrant 2, .resume 2,
   .dispatch 2, .cancel 1, .close, .worker .take, .worker (.applyPragmas true),
   .worker (.runOperation true), .worker .release, .worker .take, .worker (.applyPragmas true),
   .worker (.runOperation true), .worker .release, .putStop, .worker .take, .worker (.finish true)]

def drainedState : DatabaseWriter :=
  { adm :=
      { calls := [⟨.dispatched, .consumed, .result⟩, ⟨.left, .consumed, .result⟩,
          ⟨.dispatched, .consumed, .result⟩] }
    state := .closed, stopEnqueued := true, closed := true, worker := .exited
    enqueued := [0, 1, 2], resolved := [0, 1, 2], ran := [0, 1, 2], stopsPut := 1 }

theorem clean_runs_accounted_drained :
    run twoSlots {} drainedRun = some drainedState ∧ Accounted twoSlots drainedState := by
  have hrun : run twoSlots {} drainedRun = some drainedState := by decide +kernel
  exact ⟨hrun, clean_runs_accounted twoSlots drainedRun drainedState (by decide +kernel) hrun⟩

/-- Two callers own the slots.  The operation of the first fails and its rollback raises, say, a
`MemoryError`: the slot is released when `_run_request` unwinds and again in the `except` branch. -/
def doubleReleaseRun : List Action :=
  [.submit true, .submit true, .dispatch 0, .worker .take, .worker (.openConnection true),
   .worker (.applyPragmas true), .worker (.runOperation false), .worker (.rollback .otherError),
   .worker .release, .worker .beginFatalShutdown, .worker .failActive, .worker .release]

theorem double_release_unaccounted :
    ¬ ∀ actions s, run twoSlots {} actions = some s → Accounted twoSlots s := by
  intro h
  have hslots : ∀ s, run twoSlots {} doubleReleaseRun = some s →
      s.adm.outstanding ≠ s.adm.granted + s.adm.admitted + s.queued.length + s.worker.owns := by
    decide +kernel
  cases hrun : run twoSlots {} doubleReleaseRun with
  | none => exact absurd hrun (by decide +kernel)
  | some s => exact hslots s hrun (h _ s hrun).slots

end DatabaseWriter
end RapidInbox

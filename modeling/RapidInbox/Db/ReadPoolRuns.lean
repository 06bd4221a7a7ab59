import RapidInbox.Db.ReadPoolSteps
import Mathlib.Algebra.BigOperators.Group.List.Basic
import Mathlib.Data.List.Nodup

/-!
# Runs of the read pool

What holds of the pool in every run with timely resumes: a returned pause keeps the pool empty until
the next resume, every placed request is completed once and after a bounded number of steps of its
worker, no request stands behind `_STOP`, a worker receives one `_STOP` at most, and a closed pool that
owns nothing stops all its workers.
-/

namespace RapidInbox

open Admission

namespace ReadPool

variable {cfg : PoolConfig} {s s' : ReadPool} {i : Nat} {w : ReadWorker}

/-! ## What the others do to a worker -/

/-- Worker `i` stands where it stood; its queue may have grown, unless `_STOP` was already sent. -/
def Extends (i : Nat) (s s' : ReadPool) : Prop :=
  (∀ c ∈ s.resolved, c ∈ s'.resolved) ∧ (s.stopEnqueued = true → s'.stopEnqueued = true) ∧
    ∀ w, s.workers[i]? = some w → ∃ w' extra, s'.workers[i]? = some w' ∧ w'.phase = w.phase ∧
      w'.queue = w.queue ++ extra ∧ (s.stopEnqueued = true → extra = [])

theorem Extends.of_workers (hresolved : s'.resolved = s.resolved)
    (hstop : s.stopEnqueued = true → s'.stopEnqueued = true) (hworkers : s'.workers = s.workers) :
    Extends i s s' := by
  refine ⟨fun c hc => hresolved ▸ hc, hstop, fun w hget => ⟨w, [], hworkers ▸ hget, rfl, ?_, fun _ => rfl⟩⟩
  rw [List.append_nil]

theorem Extends.trans {t : ReadPool} (h : Extends i s t) (h' : Extends i t s') : Extends i s s' := by
  obtain ⟨hres, hstop, hworkers⟩ := h
  obtain ⟨hres', hstop', hworkers'⟩ := h'
  refine ⟨fun c hc => hres' c (hres c hc), fun hs => hstop' (hstop hs), fun w hget => ?_⟩
  obtain ⟨w₁, extra₁, hget₁, hphase₁, hqueue₁, hnone₁⟩ := hworkers w hget
  obtain ⟨w₂, extra₂, hget₂, hphase₂, hqueue₂, hnone₂⟩ := hworkers' w₁ hget₁
  refine ⟨w₂, extra₁ ++ extra₂, hget₂, hphase₂.trans hphase₁, ?_, fun hs => ?_⟩
  · rw [hqueue₂, hqueue₁, List.append_assoc]
  · rw [hnone₁ hs, hnone₂ (hstop hs), List.append_nil]

/-- The controls are sent once, and `_PAUSE` not after `_STOP`. -/
theorem advanceLifecycle_extends
    (hstate : s.stopEnqueued = true → s.state = .closing ∨ s.state = .closed) :
    Extends i s s.advanceLifecycle := by
  unfold ReadPool.advanceLifecycle
  split
  · exact .of_workers rfl id rfl
  · split
    · rename_i hpause
      refine ⟨fun c hc => hc, id, fun w hget => ⟨w.push .pause, [.pause], ?_, rfl, rfl, fun hs => ?_⟩⟩
      · simp [hget]
      · rcases hstate hs with hc | hc <;> rw [hpause.1] at hc <;> cases hc
    · split
      · rename_i hstop
        refine ⟨fun c hc => hc, fun _ => rfl,
          fun w hget => ⟨w.pushStop, [.stop], ?_, rfl, rfl, fun hs => ?_⟩⟩
        · simp [hget]
        · rw [hstop.2] at hs
          cases hs
      · exact .of_workers rfl id rfl

theorem regrant_extends (cfg : PoolConfig) (adm : Admission)
    (hstate : s.stopEnqueued = true → s.state = .closing ∨ s.state = .closed) :
    Extends i s (regrant cfg { s with adm := adm }) :=
  .trans (t := { s with adm := adm.grantWaiters cfg.queueCapacity (s.state = .opened) })
    (.of_workers rfl id rfl) (advanceLifecycle_extends hstate)

theorem setWorker_extends {j : Nat} (hne : j ≠ i) (v : ReadWorker) : Extends i s (s.setWorker j v) := by
  refine ⟨fun c hc => hc, id, fun w hget => ⟨w, [], ?_, rfl, (List.append_nil _).symm, fun _ => rfl⟩⟩
  simpa [ReadPool.setWorker, List.getElem?_set_ne hne] using hget

theorem settle_extends {j : Nat} (hne : j ≠ i) (v : ReadWorker) (c : Nat) :
    Extends i s (s.settle j v c) := by
  obtain ⟨-, hstop, hworkers⟩ := setWorker_extends (s := s) hne v
  exact ⟨fun d hd => List.mem_append_left _ hd, hstop, hworkers⟩

theorem settlePause_extends (outcome : FutureState) (phase : PauserPhase) :
    Extends i s (s.settlePause outcome phase) := by
  unfold ReadPool.settlePause
  split <;> exact .of_workers rfl id rfl

theorem acknowledgePause_extends : Extends i s (acknowledgePause cfg s) := by
  unfold acknowledgePause
  dsimp only
  split
  · exact .of_workers rfl id rfl
  · split
    · exact .trans (t := { s with pauseAckCount := s.pauseAckCount + 1, state := .paused })
        (.of_workers rfl id rfl) (settlePause_extends _ _)
    · exact .of_workers rfl id rfl

/-- A release by another worker. -/
theorem release_extends {j : Nat} (hne : j ≠ i) {s₁ : ReadPool} {v : ReadWorker}
    (hstate : s.stopEnqueued = true → s.state = .closing ∨ s.state = .closed)
    (hrelease : releaseCapacity cfg s = some s₁) : Extends i s (s₁.setWorker j v) := by
  unfold releaseCapacity at hrelease
  split at hrelease
  · cases hrelease
  · obtain rfl := Option.some.inj hrelease
    exact (regrant_extends cfg _ hstate).trans (setWorker_extends hne v)

theorem beginWorkerFailure_extends {j : Nat} (hne : j ≠ i) :
    Extends i s (s.beginWorkerFailure j) := by
  unfold ReadPool.beginWorkerFailure
  split
  · exact .of_workers rfl id rfl
  · dsimp only
    refine .trans (t := { s with
      fatalError := true, state := .closing, adm := s.adm.rejectWaiters }.settlePause .exception .failed)
      ?_ ?_
    · exact .trans (t := { s with
        fatalError := true, state := .closing, adm := s.adm.rejectWaiters })
        (.of_workers rfl id rfl) (settlePause_extends _ _)
    · split
      · exact .of_workers rfl id rfl
      · rename_i hstop
        refine ⟨fun c hc => hc, fun _ => rfl,
          fun w hget => ⟨w.pushStop, [.stop], ?_, rfl, rfl, fun hs => absurd hs hstop⟩⟩
        simp [stopOthers, hget, hne.symm]

/-- Another worker's step. -/
theorem workerStepAt_extends {j : Nat} (hne : j ≠ i) {v : ReadWorker} {action : PoolWorkerAction}
    (hstate : s.stopEnqueued = true → s.state = .closing ∨ s.state = .closed)
    (hstep : workerStepAt cfg s j v action = some s') : Extends i s s' := by
  unfold workerStepAt at hstep
  split at hstep
  -- take
  · split at hstep
    · cases hstep
    all_goals
      obtain rfl := Option.some.inj hstep
      exact setWorker_extends hne _
  -- takeFails
  · obtain rfl := Option.some.inj hstep
    exact setWorker_extends hne _
  -- check
  · obtain rfl := Option.some.inj hstep
    split
    · exact settle_extends hne _ _
    · exact settle_extends hne _ _
    · exact setWorker_extends hne _
  -- connect
  · split at hstep
    · split at hstep
      · obtain rfl := Option.some.inj hstep
        exact setWorker_extends hne _
      · cases hstep
    all_goals
      obtain rfl := Option.some.inj hstep
      exact setWorker_extends hne _
  -- execute
  · obtain rfl := Option.some.inj hstep
    split
    · exact settle_extends hne _ _
    · exact setWorker_extends hne _
    · exact setWorker_extends hne _
  -- recover from an error of SQLite
  · obtain rfl := Option.some.inj hstep
    split
    · exact settle_extends hne _ _
    · split
      · exact settle_extends hne _ _
      · exact setWorker_extends hne _
    · exact setWorker_extends hne _
  -- recover from another error
  · split at hstep
    · obtain rfl := Option.some.inj hstep
      exact settle_extends hne _ _
    · cases hstep
    · obtain rfl := Option.some.inj hstep
      exact setWorker_extends hne _
  -- release
  · split at hstep
    · rename_i s₁ hrelease
      obtain ⟨w₁, -, rfl⟩ := Option.map_eq_some_iff.mp hstep
      exact release_extends hne hstate hrelease
    · obtain rfl := Option.some.inj hstep
      exact setWorker_extends hne _
  -- closeForPause
  · obtain rfl := Option.some.inj hstep
    exact setWorker_extends hne _
  -- acknowledge
  · obtain rfl := Option.some.inj hstep
    exact (setWorker_extends hne _).trans acknowledgePause_extends
  -- beginFailure
  · obtain rfl := Option.some.inj hstep
    exact (setWorker_extends hne _).trans (beginWorkerFailure_extends hne)
  -- failActive
  · obtain rfl := Option.some.inj hstep
    split
    · split
      · exact setWorker_extends hne _
      · exact settle_extends hne _ _
    · exact setWorker_extends hne _
  -- failQueue
  · split at hstep
    · obtain rfl := Option.some.inj hstep
      exact setWorker_extends hne _
    · obtain rfl := Option.some.inj hstep
      exact settle_extends hne _ _
    · obtain rfl := Option.some.inj hstep
      exact setWorker_extends hne _
  -- release of a failed request
  · split at hstep
    · rename_i s₁ hrelease
      obtain ⟨w₁, -, rfl⟩ := Option.map_eq_some_iff.mp hstep
      exact release_extends hne hstate hrelease
    · obtain rfl := Option.some.inj hstep
      exact setWorker_extends hne _
  -- closeAtEnd
  · obtain rfl := Option.some.inj hstep
    exact setWorker_extends hne _
  -- stopped
  · obtain rfl := Option.some.inj hstep
    unfold ReadPool.workerStopped
    dsimp only
    split
    · exact setWorker_extends hne _
    · split
      · exact .trans (setWorker_extends hne _) (.of_workers rfl id rfl)
      · exact .trans (setWorker_extends hne _) (.of_workers rfl id rfl)
  · cases hstep

/-- The action is a step of worker `i`. -/
def Action.isWorker (i : Nat) : Action → Bool
  | .worker j _ => j = i
  | _ => false

theorem Sound.step_extends (h : Sound cfg s) {action : Action} (hother : action.isWorker i = false)
    (hstep : s.step cfg action = some s') : Extends i s s' := by
  have hstate : s.stopEnqueued = true → s.state = .closing ∨ s.state = .closed :=
    fun hs => (h.stopState hs).1
  cases action with
  | submit =>
    obtain rfl := Option.some.inj hstep
    unfold ReadPool.submit
    split <;> exact .of_workers rfl id rfl
  | scheduleGrant c =>
    obtain ⟨adm, -, rfl⟩ := Option.map_eq_some_iff.mp hstep
    exact .of_workers rfl id rfl
  | failGrant c =>
    obtain ⟨adm, -, rfl⟩ := Option.map_eq_some_iff.mp hstep
    exact regrant_extends cfg adm hstate
  | deliverGrant c =>
    obtain ⟨⟨adm, back⟩, -, rfl⟩ := Option.map_eq_some_iff.mp hstep
    cases back with
    | false => exact .of_workers rfl id rfl
    | true => exact regrant_extends cfg adm hstate
  | scheduleRejection c loopOpen =>
    obtain ⟨adm, -, rfl⟩ := Option.map_eq_some_iff.mp hstep
    exact .of_workers rfl id rfl
  | deliverRejection c =>
    obtain ⟨adm, -, rfl⟩ := Option.map_eq_some_iff.mp hstep
    exact .of_workers rfl id rfl
  | interrupt c =>
    obtain ⟨adm, -, rfl⟩ := Option.map_eq_some_iff.mp hstep
    exact .of_workers rfl id rfl
  | abandon c =>
    obtain ⟨adm, -, rfl⟩ := Option.map_eq_some_iff.mp hstep
    exact .of_workers rfl id rfl
  | resumeCaller c =>
    obtain ⟨adm, -, rfl⟩ := Option.map_eq_some_iff.mp hstep
    exact .of_workers rfl id rfl
  | unwind c =>
    obtain ⟨adm, -, rfl⟩ := Option.map_eq_some_iff.mp hstep
    exact regrant_extends cfg _ hstate
  | dispatch c =>
    change s.dispatch cfg c = some s' at hstep
    unfold ReadPool.dispatch at hstep
    split at hstep
    · obtain ⟨adm, -, rfl⟩ := Option.map_eq_some_iff.mp hstep
      exact .trans (t := { s with adm := { adm with outstanding := adm.outstanding - 1 } })
        (.of_workers rfl id rfl) (advanceLifecycle_extends hstate)
    · rename_i halive
      obtain ⟨adm, hmove, rfl⟩ := Option.map_eq_some_iff.mp hstep
      have hpos := h.admitted_pos (move_pos hmove rfl)
      have hnostop : s.stopEnqueued ≠ true := by
        intro hs
        rcases (h.stopState hs).2 with hz | hf
        · omega
        · exact halive (.inl hf)
      refine ⟨fun d hd => hd, id, fun w hget => ?_⟩
      by_cases hi : s.nextWorker = i
      · exact ⟨w.push (.request c), [.request c], by simp [hi, hget], rfl, rfl,
          fun hs => absurd hs hnostop⟩
      · exact ⟨w, [], by simp [hi, hget], rfl, (List.append_nil _).symm,
          fun _ => rfl⟩
  | pauseAndDrain =>
    obtain rfl := Option.some.inj hstep
    unfold ReadPool.pauseAndDrain
    split
    · exact .of_workers rfl id rfl
    · rename_i hopen
      have hnostop : s.stopEnqueued ≠ true := by
        intro hs
        rcases hstate hs with hc | hc <;> rw [hopen] at hc <;> cases hc
      refine .trans (t := ReadPool.advanceLifecycle { s with
        state := .pausing, pauseComplete := some .pending, adm := s.adm.rejectWaiters }) ?_
        (.of_workers rfl id rfl)
      refine .trans (t := { s with
        state := .pausing, pauseComplete := some .pending, adm := s.adm.rejectWaiters })
        (.of_workers rfl id rfl) ?_
      exact advanceLifecycle_extends fun hs => absurd hs hnostop
    all_goals exact .of_workers rfl id rfl
  | pauserReturns p =>
    change s.pauserReturns p = some s' at hstep
    unfold ReadPool.pauserReturns at hstep
    split at hstep
    · obtain rfl := Option.some.inj hstep
      exact .of_workers rfl id rfl
    · obtain rfl := Option.some.inj hstep
      exact .of_workers rfl id rfl
    · cases hstep
  | resume =>
    obtain rfl := Option.some.inj hstep
    unfold ReadPool.resume
    split
    · refine ⟨fun c hc => hc, id, fun w hget => ⟨{ w with acked := false }, [], ?_, rfl,
        (List.append_nil _).symm, fun _ => rfl⟩⟩
      simp [hget]
    all_goals exact .of_workers rfl id rfl
  | close =>
    obtain rfl := Option.some.inj hstep
    unfold ReadPool.close
    split
    · exact .of_workers rfl id rfl
    · refine .trans (t := { s with
        state := .closing, adm := s.adm.rejectWaiters }.settlePause .exception .failed) ?_ ?_
      · exact .trans (t := { s with state := .closing, adm := s.adm.rejectWaiters })
          (.of_workers rfl id rfl) (settlePause_extends _ _)
      · refine advanceLifecycle_extends fun _ => .inl ?_
        rw [(settlePause_frame _ _).1]
  | worker j action =>
    obtain ⟨v, -, hat⟩ := Option.bind_eq_some_iff.mp hstep
    have hne : j ≠ i := by simpa [Action.isWorker] using hother
    exact workerStepAt_extends hne hstate hat

/-! ## Progress of a worker -/

/-- How many steps the worker is away from taking its next item, at most. -/
@[simp] def rank : ReadPhase → Nat
  | .checking _ false => 17
  | .connecting _ false => 16
  | .executing _ false => 15
  | .sqliteFailed _ false => 14
  | .checking _ true => 13
  | .connecting _ true => 12
  | .executing _ true => 11
  | .sqliteFailed _ true => 10
  | .otherFailed _ | .pausing => 9
  | .releasing _ | .acknowledging => 8
  | .idle => 7
  | .fatal _ => 6
  | .failingActive _ => 5
  | .releasingFailed => 4
  | .failing => 3
  | .finishing => 2
  | .stopping => 1
  | .exited => 0

theorem exited_of_rank {phase : ReadPhase} (h : rank phase = 0) : phase = .exited := by
  unfold rank at h
  split at h <;> first | rfl | cases h

/-- The worker has gone on with what it holds, its queue grown at most. -/
structure Moves (s : ReadPool) (w : ReadWorker) (s' : ReadPool) (w' : ReadWorker) : Prop where
  queue : ∃ extra, w'.queue = w.queue ++ extra ∧ (s.stopEnqueued = true → extra = [])
  rank : rank w'.phase < rank w.phase
  active : ∀ c ∈ w.phase.active, c ∈ w'.phase.active ∨ c ∈ s'.resolved

/-- The worker has taken the next item of its queue. -/
structure Takes (w : ReadWorker) (s' : ReadPool) (w' : ReadWorker) : Prop where
  idle : w.phase.active = []
  queue : ∃ item, w.queue = item :: w'.queue ∧
    ∀ c, item = .request c → c ∈ w'.phase.active ∨ c ∈ s'.resolved
  rank : rank w'.phase < rank w.phase + 11

theorem getElem?_setWorker (hget : s.workers[i]? = some w) (v : ReadWorker) :
    (s.setWorker i v).workers[i]? = some v := by
  have hlt := (List.getElem?_eq_some_iff.mp hget).1
  simp [ReadPool.setWorker, hlt]

theorem closing_queue (closed : Bool) : (w.closing closed).queue = w.queue := by
  unfold ReadWorker.closing
  split <;> rfl

/-- A move of the worker's own record. -/
theorem Moves.of_phase {w' : ReadWorker} (hqueue : w'.queue = w.queue)
    (hrank : ReadPool.rank w'.phase < ReadPool.rank w.phase)
    (hactive : ∀ c ∈ w.phase.active, c ∈ w'.phase.active ∨ c ∈ s'.resolved) : Moves s w s' w' :=
  ⟨⟨[], by rw [hqueue, List.append_nil], fun _ => rfl⟩, hrank, hactive⟩

/-- A release moves the worker on; its own queue may get the controls. -/
theorem release_moves (hget : s.workers[i]? = some w)
    (hstate : s.stopEnqueued = true → s.state = .closing ∨ s.state = .closed) {s₁ : ReadPool}
    (hrelease : releaseCapacity cfg s = some s₁) {w₁ : ReadWorker} (hget₁ : s₁.workers[i]? = some w₁)
    (phase : ReadPhase) (hrank : ReadPool.rank phase < ReadPool.rank w.phase)
    (hactive : w.phase.active = []) :
    Moves s w (s₁.setWorker i { w₁ with phase := phase }) { w₁ with phase := phase } ∧
      ∀ c ∈ s.resolved, c ∈ (s₁.setWorker i { w₁ with phase := phase }).resolved := by
  unfold releaseCapacity at hrelease
  split at hrelease
  · cases hrelease
  · obtain rfl := Option.some.inj hrelease
    obtain ⟨hres, -, hworkers⟩ := regrant_extends (i := i) cfg
      { s.adm with outstanding := s.adm.outstanding - 1 } hstate
    obtain ⟨w₂, extra, hget₂, -, hqueue, hnone⟩ := hworkers w hget
    obtain rfl := Option.some.inj (hget₂.symm.trans hget₁)
    refine ⟨⟨⟨extra, hqueue, hnone⟩, hrank, ?_⟩, hres⟩
    rw [hactive]
    nofun

theorem acknowledgePause_frame (cfg : PoolConfig) (s : ReadPool) :
    (acknowledgePause cfg s).workers = s.workers ∧ (acknowledgePause cfg s).resolved = s.resolved := by
  unfold acknowledgePause ReadPool.settlePause
  dsimp only
  split
  · exact ⟨rfl, rfl⟩
  · split
    · split <;> exact ⟨rfl, rfl⟩
    · exact ⟨rfl, rfl⟩

theorem beginWorkerFailure_self :
    (s.beginWorkerFailure i).workers[i]? = s.workers[i]? ∧
      (s.beginWorkerFailure i).resolved = s.resolved := by
  unfold ReadPool.beginWorkerFailure ReadPool.settlePause
  split
  · exact ⟨rfl, rfl⟩
  · dsimp only
    split <;> dsimp only <;> split <;> simp [stopOthers]

/-- The worker's own step: it goes on, or takes the next item, and what is settled stays so. -/
def Own (s : ReadPool) (i : Nat) (w : ReadWorker) (s' : ReadPool) : Prop :=
  ∃ w', s'.workers[i]? = some w' ∧ (∀ c ∈ s.resolved, c ∈ s'.resolved) ∧
    (Moves s w s' w' ∨ Takes w s' w')

theorem Own.takes {v : ReadWorker} {item : PoolItem} (hidle : w.phase.active = [])
    (hqueue : w.queue = item :: v.queue)
    (hactive : ∀ c, item = .request c → c ∈ v.phase.active ∨ c ∈ s'.resolved)
    (hrank : ReadPool.rank v.phase < ReadPool.rank w.phase + 11)
    (hs' : s'.workers[i]? = some v) (hres : ∀ c ∈ s.resolved, c ∈ s'.resolved) : Own s i w s' :=
  ⟨v, hs', hres, .inr ⟨hidle, ⟨item, hqueue, hactive⟩, hrank⟩⟩

section Own

variable (hget : s.workers[i]? = some w)
include hget

theorem Own.set {v : ReadWorker} (hqueue : v.queue = w.queue)
    (hrank : ReadPool.rank v.phase < ReadPool.rank w.phase)
    (hactive : ∀ c ∈ w.phase.active, c ∈ v.phase.active ∨ c ∈ s.resolved) :
    Own s i w (s.setWorker i v) :=
  ⟨v, getElem?_setWorker hget v, fun _ => id, .inl (.of_phase hqueue hrank hactive)⟩

theorem Own.settle {v : ReadWorker} {c : Nat} (hqueue : v.queue = w.queue)
    (hrank : ReadPool.rank v.phase < ReadPool.rank w.phase)
    (hactive : ∀ c' ∈ w.phase.active, c' = c) : Own s i w (s.settle i v c) :=
  ⟨v, getElem?_setWorker hget v, fun _ => List.mem_append_left _,
    .inl (.of_phase hqueue hrank fun c' hc' => .inr (by simp [ReadPool.settle, hactive c' hc']))⟩

/-- A release of capacity that the pool allows, or refuses. -/
theorem Own.release (hstate : s.stopEnqueued = true → s.state = .closing ∨ s.state = .closed)
    {phase failed : ReadPhase} (hrank : ReadPool.rank phase < ReadPool.rank w.phase)
    (hfailed : ReadPool.rank failed < ReadPool.rank w.phase) (hactive : w.phase.active = [])
    (hstep : (match releaseCapacity cfg s with
      | some s' => (s'.workers[i]?).map fun w' => s'.setWorker i { w' with phase := phase }
      | none => some (s.setWorker i { w with phase := failed })) = some s') : Own s i w s' := by
  split at hstep
  · rename_i s₁ hrelease
    obtain ⟨w₁, hget₁, rfl⟩ := Option.map_eq_some_iff.mp hstep
    obtain ⟨hmoves, hres⟩ := release_moves hget hstate hrelease hget₁ phase hrank hactive
    exact ⟨_, getElem?_setWorker hget₁ _, hres, .inl hmoves⟩
  · obtain rfl := Option.some.inj hstep
    exact .set hget rfl hfailed fun c hc => absurd (hactive ▸ hc) List.not_mem_nil

theorem own_take (hphase : w.phase = .idle)
    (hstep : workerStepAt cfg s i w .take = some s') : Own s i w s' := by
  simp only [workerStepAt, hphase] at hstep
  split at hstep <;> cases hstep
  all_goals
    rename_i hqueue
    exact .takes (by simp [hphase]) hqueue (by simp) (by simp [hphase]) (getElem?_setWorker hget _)
      fun _ => id

theorem own_connect {c : Nat} {retry : Bool} {outcome : Connect}
    (hphase : w.phase = .connecting c retry)
    (hstep : workerStepAt cfg s i w (.connect outcome) = some s') : Own s i w s' := by
  simp only [workerStepAt, hphase] at hstep
  cases outcome with
  | reused =>
    dsimp only at hstep
    split at hstep <;> cases hstep
    exact .set hget rfl (by cases retry <;> simp [hphase]) (by simp [hphase])
  | opened =>
    cases hstep
    exact .set hget rfl (by cases retry <;> simp [hphase]) (by simp [hphase])
  | _ closed =>
    cases hstep
    exact .set hget (closing_queue closed) (by cases retry <;> simp [hphase]) (by simp [hphase])

theorem own_recover {c : Nat} {retry : Bool} {outcome : Recover}
    (hphase : w.phase = .sqliteFailed c retry)
    (hstep : workerStepAt cfg s i w (.recover outcome) = some s') : Own s i w s' := by
  simp only [workerStepAt, hphase] at hstep
  cases hstep
  cases outcome with
  | completes closed =>
    exact .settle hget (closing_queue closed) (by cases retry <;> simp [hphase]) (by simp [hphase])
  | retries =>
    cases retry with
    | true => exact .settle hget (closing_queue true) (by simp [hphase]) (by simp [hphase])
    | false => exact .set hget (closing_queue true) (by simp [hphase]) (by simp [hphase])
  | raises closed =>
    exact .set hget (closing_queue closed) (by cases retry <;> simp [hphase]) (by simp [hphase])

theorem own_failActive {active : Option Nat} (hphase : w.phase = .failingActive active)
    (hstep : workerStepAt cfg s i w .failActive = some s') : Own s i w s' := by
  simp only [workerStepAt, hphase] at hstep
  cases hstep
  cases active with
  | none => exact .set hget rfl (by simp [hphase]) (by simp [hphase])
  | some c =>
    dsimp only
    split
    · rename_i hsettled
      exact .set hget rfl (by simp [hphase]) (by simpa [hphase] using hsettled)
    · exact .settle hget rfl (by simp [hphase]) (by simp [hphase])

theorem own_failQueue (hphase : w.phase = .failing)
    (hstep : workerStepAt cfg s i w .failQueue = some s') : Own s i w s' := by
  simp only [workerStepAt, hphase] at hstep
  split at hstep <;> cases hstep
  · exact .set hget rfl (by simp [hphase]) (by simp [hphase])
  · rename_i hqueue
    exact .takes (by simp [hphase]) hqueue (by simp [ReadPool.settle]) (by simp [hphase])
      (getElem?_setWorker hget _) fun _ => List.mem_append_left _
  · rename_i hitem hqueue
    exact .takes (by simp [hphase]) hqueue (fun c hc => (hitem c hc).elim) (by simp [hphase])
      (getElem?_setWorker hget _) fun _ => id

theorem workerStepAt_own (hstate : s.stopEnqueued = true → s.state = .closing ∨ s.state = .closed)
    {action : PoolWorkerAction} (hstep : workerStepAt cfg s i w action = some s') : Own s i w s' := by
  have hown := hstep
  unfold workerStepAt at hstep
  cases hphase : w.phase <;> rw [hphase] at hstep <;> cases action <;> try cases hstep
  case idle.take => exact own_take hget hphase hown
  case idle.takeFails => exact .set hget rfl (by simp [hphase]) (by simp [hphase])
  case checking.check c retry verdict =>
    cases verdict with
    | proceeds => exact .set hget rfl (by cases retry <;> simp [hphase]) (by simp [hphase])
    | _ => exact .settle hget rfl (by cases retry <;> simp [hphase]) (by simp [hphase])
  case connecting.connect => exact own_connect hget hphase hown
  case executing.execute c retry outcome =>
    cases outcome with
    | returned => exact .settle hget rfl (by cases retry <;> simp [hphase]) (by simp [hphase])
    | _ => exact .set hget rfl (by cases retry <;> simp [hphase]) (by simp [hphase])
  case sqliteFailed.recover => exact own_recover hget hphase hown
  case otherFailed.recover outcome =>
    cases outcome <;> cases hstep
    case completes closed =>
      exact .settle hget (closing_queue closed) (by simp [hphase]) (by simp [hphase])
    case raises closed => exact .set hget (closing_queue closed) (by simp [hphase]) (by simp [hphase])
  case releasing.release =>
    exact .release hget hstate (by simp [hphase]) (by simp [hphase]) (by simp [hphase]) hstep
  case pausing.closeForPause closes =>
    cases closes with
    | true => exact .set hget (closing_queue true) (by simp [hphase]) (by simp [hphase])
    | false => exact .set hget rfl (by simp [hphase]) (by simp [hphase])
  case acknowledging.acknowledge =>
    obtain ⟨hworkers, hresolved⟩ := acknowledgePause_frame cfg
      (s.setWorker i { w with acked := true, phase := .idle })
    exact ⟨_, (congrArg (·[i]?) hworkers).trans (getElem?_setWorker hget _),
      fun c hc => hresolved ▸ hc, .inl (.of_phase rfl (by simp [hphase]) (by simp [hphase]))⟩
  case fatal.beginFailure active =>
    obtain ⟨hworkers, hresolved⟩ := beginWorkerFailure_self (i := i)
      (s := s.setWorker i { w with phase := .failingActive active })
    exact ⟨_, hworkers.trans (getElem?_setWorker hget _), fun c hc => hresolved ▸ hc,
      .inl (.of_phase rfl (by simp [hphase]) (by cases active <;> simp [hphase]))⟩
  case failingActive.failActive => exact own_failActive hget hphase hown
  case failing.failQueue => exact own_failQueue hget hphase hown
  case releasingFailed.release =>
    exact .release hget hstate (by simp [hphase]) (by simp [hphase]) (by simp [hphase]) hstep
  case finishing.closeAtEnd closes raises =>
    exact .set hget (closing_queue closes) (by cases raises <;> simp [hphase]) (by simp [hphase])
  case stopping.stopped =>
    unfold ReadPool.workerStopped
    dsimp only
    split
    · exact .set hget rfl (by simp [hphase]) (by simp [hphase])
    · split <;> exact ⟨_, getElem?_setWorker hget _, fun _ => id,
        .inl (.of_phase rfl (by simp [hphase]) (by simp [hphase]))⟩

end Own

theorem release_enabled (hget : s.workers[i]? = some w)
    (hphase : w.phase = .releasingFailed ∨ ∃ c, w.phase = .releasing c) :
    ∃ s', workerStepAt cfg s i w .release = some s' := by
  cases hrelease : releaseCapacity cfg s with
  | none => rcases hphase with hw | ⟨c, hw⟩ <;> exact ⟨_, by simp [workerStepAt, hw, hrelease]; rfl⟩
  | some s₁ =>
    have hsome : ∃ w₁, s₁.workers[i]? = some w₁ := by
      unfold releaseCapacity at hrelease
      split at hrelease
      · cases hrelease
      · obtain rfl := Option.some.inj hrelease
        obtain ⟨w₁, hget₁, -⟩ := regrant_setPhase cfg
          (s := { s with adm := { s.adm with outstanding := s.adm.outstanding - 1 } }) hget .idle
        exact ⟨w₁, hget₁⟩
    obtain ⟨w₁, hget₁⟩ := hsome
    rcases hphase with hw | ⟨c, hw⟩ <;>
      exact ⟨_, by simp [workerStepAt, hw, hrelease, hget₁]; rfl⟩

/-- A worker that has something to do can go on. -/
theorem worker_enabled (hget : s.workers[i]? = some w) (hphase : w.phase ≠ .exited)
    (hidle : w.phase = .idle → w.queue ≠ []) : ∃ action s', s.workerStep cfg i action = some s' := by
  suffices hat : ∃ action s', workerStepAt cfg s i w action = some s' by
    obtain ⟨action, s', hs'⟩ := hat
    exact ⟨action, s', by simp [workerStep, hget, hs']⟩
  cases hw : w.phase with
  | idle =>
    cases hqueue : w.queue with
    | nil => exact absurd hqueue (hidle hw)
    | cons item rest =>
      cases item <;> exact ⟨.take, _, by simp [workerStepAt, hw, hqueue]; rfl⟩
  | checking c retry => exact ⟨.check .proceeds, _, by simp [workerStepAt, hw]; rfl⟩
  | connecting c retry => exact ⟨.connect .opened, _, by simp [workerStepAt, hw]; rfl⟩
  | executing c retry => exact ⟨.execute .returned, _, by simp [workerStepAt, hw]; rfl⟩
  | sqliteFailed c retry => exact ⟨.recover .retries, _, by simp [workerStepAt, hw]; rfl⟩
  | otherFailed c => exact ⟨.recover (.completes false), _, by simp [workerStepAt, hw]; rfl⟩
  | releasing c => exact ⟨.release, release_enabled hget (.inr ⟨c, hw⟩)⟩
  | pausing => exact ⟨.closeForPause true, _, by simp [workerStepAt, hw]; rfl⟩
  | acknowledging => exact ⟨.acknowledge, _, by simp [workerStepAt, hw]; rfl⟩
  | fatal active => exact ⟨.beginFailure, _, by simp [workerStepAt, hw]; rfl⟩
  | failingActive active => exact ⟨.failActive, _, by simp [workerStepAt, hw]; rfl⟩
  | releasingFailed => exact ⟨.release, release_enabled hget (.inl hw)⟩
  | failing =>
    cases hqueue : w.queue with
    | nil => exact ⟨.failQueue, _, by simp [workerStepAt, hw, hqueue]; rfl⟩
    | cons item rest =>
      cases item <;> exact ⟨.failQueue, _, by simp [workerStepAt, hw, hqueue]; rfl⟩
  | finishing => exact ⟨.closeAtEnd true false, _, by simp [workerStepAt, hw]; rfl⟩
  | stopping => exact ⟨.stopped, _, by simp [workerStepAt, hw]; rfl⟩
  | exited => exact absurd hw hphase

/-! ## Whole runs -/

/-- The invariant of a run. -/
structure Reached (cfg : PoolConfig) (s : ReadPool) : Prop where
  sound : Sound cfg s
  advanced : s.Advanced

theorem Reached.step (h : Reached cfg s) {action : Action} (hclean : CleanStep s action)
    (hstep : s.step cfg action = some s') : Reached cfg s' :=
  let ⟨hsound, hadvanced⟩ := h.sound.step h.advanced hclean hstep
  ⟨hsound, hadvanced⟩

/-- Every resume of the run is timely. -/
def CleanRun (cfg : PoolConfig) (s : ReadPool) (actions : List Action) : Prop :=
  Transition.Along (step cfg) CleanStep s actions

theorem Reached.run (h : Reached cfg s) {actions : List Action} (hclean : CleanRun cfg s actions)
    (hrun : s.run cfg actions = some s') : Reached cfg s' :=
  Transition.run_invariant_along (fun _ _ _ hinv hcl hst => Reached.step hinv hcl hst) h hclean hrun

/-- Request `c` is settled, or among what worker `i` does in its next `n` steps. -/
def Due (i c n : Nat) (s : ReadPool) : Prop :=
  c ∈ s.resolved ∨ ∃ w rest extra, s.workers[i]? = some w ∧ w.queue = rest ++ extra ∧
    c ∈ w.phase.active ++ PoolItem.requests rest ∧ rank w.phase + 11 * rest.length ≤ n

theorem Due.other {c n : Nat} (h : Due i c n s) (hext : Extends i s s') : Due i c n s' := by
  obtain ⟨hres, -, hworkers⟩ := hext
  rcases h with hc | ⟨w, rest, extra, hget, hqueue, hc, hn⟩
  · exact .inl (hres c hc)
  · obtain ⟨w', more, hget', hphase, hqueue', -⟩ := hworkers w hget
    refine .inr ⟨w', rest, extra ++ more, hget', ?_, ?_, ?_⟩
    · rw [hqueue', hqueue, List.append_assoc]
    · rw [hphase]
      exact hc
    · rw [hphase]
      exact hn

theorem Due.own {c n : Nat} (h : Due i c (n + 1) s) (hget : s.workers[i]? = some w)
    {w' : ReadWorker} (hget' : s'.workers[i]? = some w') (hres : ∀ d ∈ s.resolved, d ∈ s'.resolved)
    (hown : Moves s w s' w' ∨ Takes w s' w') : Due i c n s' := by
  rcases h with hc | ⟨v, rest, extra, hv, hqueue, hc, hn⟩
  · exact .inl (hres c hc)
  · obtain rfl := Option.some.inj (hget.symm.trans hv)
    rcases hown with hmoves | htakes
    · obtain ⟨more, hqueue', -⟩ := hmoves.queue
      have hrank := hmoves.rank
      rcases List.mem_append.mp hc with hactive | hrest
      · rcases hmoves.active c hactive with ha | hr
        · exact .inr ⟨w', rest, extra ++ more, hget', by rw [hqueue', hqueue, List.append_assoc],
            List.mem_append_left _ ha, by omega⟩
        · exact .inl hr
      · exact .inr ⟨w', rest, extra ++ more, hget', by rw [hqueue', hqueue, List.append_assoc],
          List.mem_append_right _ hrest, by omega⟩
    · obtain ⟨item, hitem, htaken⟩ := htakes.queue
      have hrank := htakes.rank
      rw [htakes.idle, List.nil_append] at hc
      cases rest with
      | nil => cases hc
      | cons head rest =>
        rw [hqueue, List.cons_append] at hitem
        obtain ⟨rfl, htail⟩ := List.cons.inj hitem
        rw [List.length_cons] at hn
        have hcase : head = .request c ∨ c ∈ PoolItem.requests rest := by
          cases head with
          | request d =>
            rcases List.mem_cons.mp hc with rfl | hc
            · exact .inl rfl
            · exact .inr hc
          | pause => exact .inr hc
          | stop => exact .inr hc
        rcases hcase with rfl | hrest
        · rcases htaken c rfl with ha | hr
          · exact .inr ⟨w', rest, extra, hget', htail.symm, List.mem_append_left _ ha, by omega⟩
          · exact .inl hr
        · exact .inr ⟨w', rest, extra, hget', htail.symm, List.mem_append_right _ hrest, by omega⟩

/-- Nothing is due without a step. -/
theorem Due.settled {c : Nat} (h : Due i c 0 s) : c ∈ s.resolved := by
  rcases h with hc | ⟨w, rest, extra, -, -, hc, hn⟩
  · exact hc
  · have hrest : rest = [] := List.eq_nil_of_length_eq_zero (by omega)
    subst hrest
    rw [PoolItem.requests_nil, List.append_nil] at hc
    have hexited : w.phase = .exited := exited_of_rank (by omega)
    rw [hexited] at hc
    cases hc

/-- The steps of worker `i` bring a request that it holds to its end. -/
theorem Reached.settles_within {more : List Action} {c n : Nat} (h : Reached cfg s)
    (hclean : CleanRun cfg s more) (hrun : s.run cfg more = some s') (hdue : Due i c n s)
    (hsteps : n ≤ more.countP (Action.isWorker i)) : c ∈ s'.resolved := by
  induction more generalizing s n with
  | nil =>
    obtain rfl := Option.some.inj hrun
    obtain rfl : n = 0 := by simpa using hsteps
    exact hdue.settled
  | cons action more ih =>
    obtain ⟨s₁, hs₁, hrest⟩ := Option.bind_eq_some_iff.mp hrun
    have hreached := h.step hclean.1 hs₁
    rw [List.countP_cons] at hsteps
    cases hworker : action.isWorker i with
    | false =>
      have hnext := hdue.other (h.sound.step_extends hworker hs₁)
      exact ih hreached (hclean.2 s₁ hs₁) hrest hnext (by simpa [hworker] using hsteps)
    | true =>
      rw [hworker, if_pos rfl] at hsteps
      have hstate : s.stopEnqueued = true → s.state = .closing ∨ s.state = .closed :=
        fun hs => (h.sound.stopState hs).1
      cases action with
      | worker j a =>
        obtain rfl : j = i := by simpa [Action.isWorker] using hworker
        obtain ⟨w, hget, hat⟩ := Option.bind_eq_some_iff.mp hs₁
        obtain ⟨w', hget', hres, hown⟩ := workerStepAt_own hget hstate hat
        have hmore : Due j c (more.countP (Action.isWorker j) + 1) s := by
          rcases hdue with hc | ⟨v, rest, extra, hv, hq, hc, hn⟩
          · exact .inl hc
          · exact .inr ⟨v, rest, extra, hv, hq, hc, by omega⟩
        exact ih hreached (hclean.2 s₁ hs₁) hrest (hmore.own hget hget' hres hown)
          (Nat.le_refl _)
      | _ => cases hworker

/-- Once `_STOP` is sent, the steps of worker `i` bring it to its end. -/
theorem Reached.exits_within {more : List Action} {n : Nat} (h : Reached cfg s)
    (hclean : CleanRun cfg s more) (hrun : s.run cfg more = some s') (hstop : s.stopEnqueued = true)
    (hget : s.workers[i]? = some w) (hn : rank w.phase + 11 * w.queue.length ≤ n)
    (hsteps : n ≤ more.countP (Action.isWorker i)) :
    ∃ w', s'.workers[i]? = some w' ∧ w'.phase = .exited := by
  induction more generalizing s w n with
  | nil =>
    obtain rfl := Option.some.inj hrun
    obtain rfl : n = 0 := by simpa using hsteps
    exact ⟨w, hget, exited_of_rank (by omega)⟩
  | cons action more ih =>
    obtain ⟨s₁, hs₁, hrest⟩ := Option.bind_eq_some_iff.mp hrun
    have hreached := h.step hclean.1 hs₁
    rw [List.countP_cons] at hsteps
    cases hworker : action.isWorker i with
    | false =>
      obtain ⟨-, hstop', hworkers⟩ := h.sound.step_extends hworker hs₁
      obtain ⟨w₁, extra, hget₁, hphase, hqueue, hnone⟩ := hworkers w hget
      rw [hnone hstop, List.append_nil] at hqueue
      refine ih hreached (hclean.2 s₁ hs₁) hrest (hstop' hstop) hget₁ ?_
        (by simpa [hworker] using hsteps)
      rw [hphase, hqueue]
      exact hn
    | true =>
      rw [hworker, if_pos rfl] at hsteps
      have hstate : s.stopEnqueued = true → s.state = .closing ∨ s.state = .closed :=
        fun hs => (h.sound.stopState hs).1
      cases action with
      | worker j a =>
        obtain rfl : j = i := by simpa [Action.isWorker] using hworker
        obtain ⟨v, hv, hat⟩ := Option.bind_eq_some_iff.mp hs₁
        obtain rfl := Option.some.inj (hget.symm.trans hv)
        obtain ⟨w', hget', -, hown⟩ := workerStepAt_own hget hstate hat
        have hkept := (workerStepAt_extends (i := j + 1) (by omega) hstate hat).2.1 hstop
        refine ih hreached (hclean.2 s₁ hs₁) hrest hkept hget' ?_ (Nat.le_refl _)
        rcases hown with hmoves | htakes
        · obtain ⟨extra, hqueue, hnone⟩ := hmoves.queue
          rw [hnone hstop, List.append_nil] at hqueue
          have hrank := hmoves.rank
          rw [hqueue]
          omega
        · obtain ⟨item, hqueue, -⟩ := htakes.queue
          have hrank := htakes.rank
          rw [hqueue, List.length_cons] at hn
          omega
      | _ => cases hworker

/-- What the pool promises in a state. -/
structure Guarded (cfg : PoolConfig) (s : ReadPool) : Prop where
  /-- After a `pause_and_drain` has returned and until `resume` is called. -/
  quiet : s.held = true → s.adm.outstanding = 0 ∧ ∀ w ∈ s.workers,
    w.connection = false ∧ w.connectionOpen = false ∧ PoolItem.requests w.queue = [] ∧
      w.phase.active = [] ∧ w.phase.owns = 0
  /-- A placed request is completed, or still to be. -/
  settledOnce : ∀ c ∈ s.dispatched,
    s.resolved.count c + (s.workers.map fun w => w.holding.count c).sum = 1
  /-- As long as it is not, the worker that has it can go on, and completes it, once, when it has gone
  on for long enough. -/
  settles : ∀ c ∈ s.dispatched, c ∉ s.resolved → ∃ i,
    (∃ action s', s.workerStep cfg i action = some s') ∧
    ∃ steps, ∀ more s', CleanRun cfg s more → s.run cfg more = some s' →
      steps ≤ more.countP (Action.isWorker i) → s'.resolved.count c = 1
  /-- No request stands behind `_STOP`, and none in the queue of a worker that has taken it. -/
  stopLast : ∀ w ∈ s.workers, PoolItem.StopLast w.queue ∧
    (w.phase.Over → PoolItem.requests w.queue = [])
  stopOnce : ∀ w ∈ s.workers, w.stops ≤ 1
  /-- After a close, when nothing is owned any more, every worker can go on until it stops, and stops
  when it has gone on for long enough. -/
  stops : s.state = .closing ∨ s.state = .closed → s.adm.outstanding = 0 →
    ∀ i w, s.workers[i]? = some w →
      (w.phase = .exited ∨ ∃ action s', s.workerStep cfg i action = some s') ∧
      ∃ steps, ∀ more s', CleanRun cfg s more → s.run cfg more = some s' →
        steps ≤ more.countP (Action.isWorker i) → ∃ w', s'.workers[i]? = some w' ∧ w'.phase = .exited

theorem Reached.count_resolved (h : Reached cfg s) {c : Nat} (hc : c ∈ s.resolved) :
    s.resolved.count c = 1 := by
  have hcount := h.sound.counted c
  have hone := List.nodup_iff_count.mp h.sound.nodup c
  have hpos := List.count_pos_iff.mpr hc
  omega

/-- A placed request that is not settled is with some worker. -/
theorem Reached.holder (h : Reached cfg s) {c : Nat} (hc : c ∈ s.dispatched) (hnot : c ∉ s.resolved) :
    ∃ (i : Nat) (w : ReadWorker), s.workers[i]? = some w ∧ c ∈ w.holding := by
  have hcount := h.sound.counted c
  have hpos := List.count_pos_iff.mpr hc
  have hzero := List.count_eq_zero.mpr hnot
  have hsum : (s.workers.map fun w => w.holding.count c).sum ≠ 0 := by omega
  by_contra hnone
  push Not at hnone
  apply hsum
  apply List.sum_eq_zero
  intro n hn
  obtain ⟨w, hw, rfl⟩ := List.mem_map.mp hn
  obtain ⟨i, hi⟩ := List.mem_iff_getElem?.mp hw
  exact List.count_eq_zero.mpr (hnone i w hi)

theorem Reached.guarded (h : Reached cfg s) : Guarded cfg s := by
  have hs := h.sound
  refine ⟨?_, ?_, ?_, ?_, fun w hw => (hs.workers w hw).stops, ?_⟩
  · intro hheld
    obtain ⟨hcontrols, hall⟩ := hs.held (.inl hheld)
    have hzero := (hs.controls hcontrols).1
    refine ⟨hzero, fun w hw => ?_⟩
    obtain ⟨hconn, hopen, -⟩ := (hs.workers w hw).acked (hall w hw)
    obtain ⟨i, hget⟩ := List.mem_iff_getElem?.mp hw
    have hload := hs.load_le hget
    unfold ReadWorker.load at hload
    have howns : w.phase.owns = 0 := by omega
    refine ⟨hconn, hopen, List.eq_nil_of_length_eq_zero (by omega), ?_, howns⟩
    cases hphase : w.phase <;> rw [hphase] at howns
    all_goals first | rfl | cases howns | skip
    all_goals
      rename_i active
      cases active with
      | none => rfl
      | some c => cases howns
  · intro c hc
    rw [← hs.counted c]
    exact List.count_eq_one_of_mem hs.nodup hc
  · intro c hc hnot
    obtain ⟨i, w, hget, hhold⟩ := h.holder hc hnot
    refine ⟨i, worker_enabled hget ?_ ?_, rank w.phase + 11 * w.queue.length,
      fun more s' hclean hrun hsteps => ?_⟩
    · intro hphase
      have hnone := ((hs.workers w (List.mem_of_getElem? hget)).drained (by simp [hphase])).1
      simp [ReadWorker.holding, hphase, hnone] at hhold
    · intro hphase hqueue
      simp [ReadWorker.holding, hphase, hqueue] at hhold
    · refine (h.run hclean hrun).count_resolved ?_
      exact h.settles_within hclean hrun
        (.inr ⟨w, w.queue, [], hget, (List.append_nil _).symm, hhold, Nat.le_refl _⟩) hsteps
  · intro w hw
    exact ⟨(hs.workers w hw).stopLast, fun ho => ((hs.workers w hw).drained ho).1⟩
  · intro hstate hzero i w hget
    have hstop : s.stopEnqueued = true := by
      rcases hstate with hc | hc
      · exact h.advanced hc hzero
      · exact hs.closed hc
    have hw := hs.workers w (List.mem_of_getElem? hget)
    refine ⟨?_, rank w.phase + 11 * w.queue.length, fun more s' hclean hrun hsteps =>
      h.exits_within hclean hrun hstop hget (Nat.le_refl _) hsteps⟩
    by_cases hexited : w.phase = .exited
    · exact .inl hexited
    · refine .inr (worker_enabled hget hexited fun hidle hqueue => ?_)
      rcases hw.ends hstop with hm | he
      · rw [hqueue] at hm
        cases hm
      · simp [hidle] at he

/-- In every run with timely resumes the pool keeps its promises in every state. -/
theorem timely_runs_guarded (cfg : PoolConfig) (actions : List Action) (s : ReadPool)
    (hclean : CleanRun cfg (started cfg) actions) (hrun : run cfg (started cfg) actions = some s) :
    Guarded cfg s := by
  have hinit : Reached cfg (started cfg) := ⟨sound_started cfg, nofun⟩
  exact (hinit.run hclean hrun).guarded

instance (s : ReadPool) : DecidablePred (CleanStep s) := fun action =>
  match action with
  | .resume => inferInstanceAs (Decidable (.completed ∉ s.pausers))
  | .submit | .scheduleGrant _ | .failGrant _ | .deliverGrant _ | .scheduleRejection _ _
  | .deliverRejection _ | .interrupt _ | .abandon _ | .resumeCaller _ | .unwind _ | .dispatch _
  | .pauseAndDrain | .pauserReturns _ | .close | .worker _ _ => isTrue trivial

instance (s : ReadPool) (actions : List Action) : Decidable (CleanRun cfg s actions) :=
  inferInstanceAs (Decidable (Transition.Along (step cfg) CleanStep s actions))

def oneWorker : PoolConfig :=
  ⟨1, 2, 1, by decide, by decide, by decide⟩

/-- A read is served, the pool is paused, resumed and closed. -/
def maintainedRun : List Action :=
  [.submit, .dispatch 0, .worker 0 .take, .worker 0 (.check .proceeds), .worker 0 (.connect .opened),
   .pauseAndDrain, .worker 0 (.execute .returned), .worker 0 .release, .worker 0 .take,
   .worker 0 (.closeForPause true), .worker 0 .acknowledge, .pauserReturns 0, .resume, .close,
   .worker 0 .take, .worker 0 (.closeAtEnd true false), .worker 0 .stopped]

def maintainedState : ReadPool :=
  { adm := { calls := [⟨.dispatched, .consumed, .result⟩] }
    state := .closed
    workers := [{ phase := .exited, stopped := true, stops := 1 }]
    stopEnqueued := true, stoppedWorkerCount := 1, closed := true, pausers := [.returned]
    dispatched := [0], resolved := [0] }

theorem timely_runs_guarded_maintained :
    run oneWorker (started oneWorker) maintainedRun = some maintainedState ∧
      Guarded oneWorker maintainedState := by
  have hrun : run oneWorker (started oneWorker) maintainedRun = some maintainedState := by
    decide +kernel
  exact ⟨hrun, timely_runs_guarded oneWorker maintainedRun maintainedState (by decide +kernel) hrun⟩

/-- A pauser waits for its coroutine to go on.  Meanwhile a second `pause_and_drain` returns at once,
its caller resumes the pool and a read is started; then the first one returns. -/
def staleReturnRun : List Action :=
  [.pauseAndDrain, .worker 0 .take, .worker 0 (.closeForPause true), .worker 0 .acknowledge,
   .pauseAndDrain, .resume, .submit, .dispatch 0, .worker 0 .take, .worker 0 (.check .proceeds),
   .worker 0 (.connect .opened), .pauserReturns 0]

theorem stale_return_unguarded :
    ¬ ∀ actions s, run oneWorker (started oneWorker) actions = some s → Guarded oneWorker s := by
  intro h
  have hopen : ∀ s, run oneWorker (started oneWorker) staleReturnRun = some s →
      s.held = true ∧ s.adm.outstanding = 1 := by
    decide +kernel
  cases hrun : run oneWorker (started oneWorker) staleReturnRun with
  | none => exact absurd hrun (by decide +kernel)
  | some s =>
    obtain ⟨hheld, hout⟩ := hopen s hrun
    have hzero := ((h _ s hrun).quiet hheld).1
    omega

end ReadPool
end RapidInbox

import RapidInbox.Db.ReadPoolSlots

/-!
# The steps of the read pool

Every step of the callers, the pausers, the closers and the workers keeps the invariant of the pool,
provided a resume does not come between the end of a pause and the return of its pausers.
-/

namespace RapidInbox

open Admission

namespace ReadPool

variable {cfg : PoolConfig} {s s' : ReadPool} {i : Nat} {w : ReadWorker}

/-! ## A worker fails -/

theorem map_stopOthers {β : Type} (workers : List ReadWorker) (i : Nat) (f : ReadWorker → β)
    (hf : ∀ w, f w.pushStop = f w) : (stopOthers workers i).map f = workers.map f := by
  apply List.ext_getElem?
  intro j
  simp only [stopOthers, List.getElem?_map, List.getElem?_mapIdx, Option.map_map]
  congr 1
  funext v
  simp only [Function.comp_apply]
  split
  · rfl
  · exact hf v

theorem mem_stopOthers {workers : List ReadWorker} {i : Nat} {v : ReadWorker}
    (hv : v ∈ stopOthers workers i) :
    workers[i]? = some v ∨ ∃ u ∈ workers, v = u.pushStop := by
  obtain ⟨j, hj⟩ := List.mem_iff_getElem?.mp hv
  simp only [stopOthers, List.getElem?_mapIdx, Option.map_eq_some_iff] at hj
  obtain ⟨u, hu, rfl⟩ := hj
  split
  · rename_i hji
    exact .inl (hji ▸ hu)
  · exact .inr ⟨u, List.mem_of_getElem? hu, rfl⟩

theorem getElem?_stopOthers (workers : List ReadWorker) (i : Nat) :
    (stopOthers workers i)[i]? = workers[i]? := by
  simp [stopOthers]

theorem stopOthers_set (workers : List ReadWorker) (i : Nat) (v : ReadWorker) :
    stopOthers (workers.set i v) i = (stopOthers workers i).set i v := by
  apply List.ext_getElem?
  intro j
  by_cases hij : i = j
  · subst hij
    simp [stopOthers, List.getElem?_set]
  · simp [stopOthers, List.getElem?_mapIdx, List.getElem?_set_ne hij]

theorem sound_fatal {v : ReadWorker} {stopEnqueued fatalError : Bool}
    (hv : v.Sound stopEnqueued fatalError) : v.Sound stopEnqueued true :=
  { hv with failed := fun _ => rfl }

/-- A failure closes the pool: every other worker has received `_STOP`. -/
theorem Sound.failPool (h : Sound cfg s) (hget : s.workers[i]? = some w) (hends : w.phase.Ending)
    (hover : ¬ w.phase.Over) :
    Sound cfg { s with
      fatalError := true, state := .closing, stopEnqueued := true
      workers := if s.stopEnqueued then s.workers else stopOthers s.workers i } := by
  cases hstop : s.stopEnqueued with
  | true =>
    refine { h with
      stopState := fun _ => ⟨.inl rfl, .inr rfl⟩, fatal := fun _ => rfl, closed := fun _ => rfl
      controls := fun hc => ⟨(h.controls hc).1, by simp⟩, paused := by simp, workers := ?_ }
    intro v hv
    have hv' := h.workers v hv
    rw [hstop] at hv'
    exact sound_fatal hv'
  | false =>
    have hacked : (stopOthers s.workers i).map (·.acked) = s.workers.map (·.acked) :=
      map_stopOthers s.workers i _ fun _ => rfl
    have hpending : ∀ v ∈ stopOthers s.workers i, ∃ u ∈ s.workers,
        v.acked = u.acked ∧ v.pending = u.pending := by
      intro v hv
      rcases mem_stopOthers hv with hv | ⟨u, hu, rfl⟩
      · exact ⟨v, List.mem_of_getElem? hv, rfl, rfl⟩
      · exact ⟨u, hu, rfl, by simp [ReadWorker.pending, ReadWorker.pushStop, ReadWorker.push]⟩
    refine { h with
      size := ?_, owed := ?_, counted := ?_, stopState := fun _ => ⟨.inl rfl, .inr rfl⟩
      fatal := fun _ => rfl, closed := fun _ => rfl
      controls := fun hc => ⟨(h.controls hc).1, by simp⟩, acks := ?_, fresh := ?_
      paused := by simp, held := ?_, workers := ?_ }
    · rw [← h.size]
      simp [stopOthers]
    · have hload := map_stopOthers s.workers i ReadWorker.load load_pushStop
      simp only [Bool.false_eq_true, if_false, hload]
      exact h.owed
    · intro c
      have hhold := map_stopOthers s.workers i (fun v => v.holding.count c)
        fun v => congrArg (List.count c) (holding_pushStop v)
      simp only [Bool.false_eq_true, if_false, hhold]
      exact h.counted c
    · have hcount : (stopOthers s.workers i).countP (·.acked) = s.workers.countP (·.acked) := by
        have hmap := congrArg (List.countP id) hacked
        simpa [List.countP_map, Function.comp_def] using hmap
      simp only [Bool.false_eq_true, if_false, hcount]
      exact h.acks
    · intro hc v hv
      obtain ⟨u, hu, ha, hp⟩ := hpending v hv
      rw [ha, hp]
      exact h.fresh hc u hu
    · intro hheld
      obtain ⟨hc, hall⟩ := h.held hheld
      refine ⟨hc, fun v hv => ?_⟩
      obtain ⟨u, hu, ha, -⟩ := hpending v hv
      rw [ha]
      exact hall u hu
    · intro v hv
      rcases mem_stopOthers hv with hv | ⟨u, hu, rfl⟩
      · obtain rfl := Option.some.inj (hget.symm.trans hv)
        have hw := h.workers w (List.mem_of_getElem? hget)
        exact { hw with
          stopSent := fun _ => rfl, drained := fun ho => absurd ho hover, failed := fun _ => rfl
          ends := fun _ => .inr hends }
      · have hu' := h.workers u hu
        rw [hstop] at hu'
        exact sound_pushStop hu' true fun _ => rfl

/-- The failing worker announces its failure. -/
theorem Sound.beginFailure (h : Sound cfg s) (hadv : s.Advanced) (hget : s.workers[i]? = some w)
    {active : Option Nat} (hphase : w.phase = .fatal active) :
    Sound cfg ((s.setWorker i { w with phase := .failingActive active }).beginWorkerFailure i) ∧
      ((s.setWorker i { w with phase := .failingActive active }).beginWorkerFailure i).Advanced := by
  have hw := h.workers w (List.mem_of_getElem? hget)
  have hconn : w.acked = true → w.connection = false ∧ w.connectionOpen = false :=
    fun ha => ⟨(hw.acked ha).1, (hw.acked ha).2.1⟩
  have howns : (ReadPhase.failingActive active).owns = w.phase.owns := by
    cases active <;> simp [hphase]
  have hactive : (ReadPhase.failingActive active).active = w.phase.active := by
    cases active <;> simp [hphase]
  unfold ReadPool.beginWorkerFailure
  split
  · rename_i hfatal
    change s.fatalError = true at hfatal
    exact ⟨h.evolve hget rfl rfl rfl hconn howns hactive (Nat.zero_le _) nofun (fun _ => hfatal)
      nofun (fun _ => trivial), hadv⟩
  · rename_i hfatal
    have hpool := h.failPool hget (by simp [hphase]) (by simp [hphase])
    have hget' : (if s.stopEnqueued then s.workers else stopOthers s.workers i)[i]? = some w := by
      split
      · exact hget
      · rw [getElem?_stopOthers]
        exact hget
    have hworker : Sound cfg (ReadPool.setWorker { s with
        fatalError := true, state := .closing, stopEnqueued := true
        workers := if s.stopEnqueued then s.workers else stopOthers s.workers i } i
        { w with phase := .failingActive active }) :=
      hpool.evolve hget' rfl rfl rfl hconn howns hactive (Nat.zero_le _) nofun (fun _ => rfl) nofun
        fun _ => trivial
    have hadm := hworker.withAdm rejectWaiters_keeps
    have hfinal := hadm.settlePause .exception .failed nofun
    cases hstop : s.stopEnqueued with
    | true =>
      rw [hstop] at hfinal
      simp only [if_true] at hfinal
      unfold ReadPool.settlePause ReadPool.setWorker at hfinal ⊢
      dsimp only at hfinal ⊢
      split at hfinal <;> rename_i hp <;> simp only [hp, if_true, if_false, hstop] <;>
        exact ⟨hfinal, fun _ _ => rfl⟩
    | false =>
      rw [hstop] at hfinal
      simp only [Bool.false_eq_true, if_false] at hfinal
      unfold ReadPool.settlePause ReadPool.setWorker at hfinal ⊢
      dsimp only at hfinal ⊢
      rw [← stopOthers_set] at hfinal
      split at hfinal <;> rename_i hp <;>
        simp only [hp, if_true, if_false, hstop, Bool.false_eq_true] <;>
        exact ⟨hfinal, fun _ _ => rfl⟩

theorem Sound.workerStopped (h : Sound cfg s) (hadv : s.Advanced) (hget : s.workers[i]? = some w)
    (hphase : w.phase = .stopping) :
    Sound cfg (workerStopped cfg s i w) ∧ (workerStopped cfg s i w).Advanced := by
  have hw := h.workers w (List.mem_of_getElem? hget)
  have hstop := (hw.drained (by simp [hphase])).2
  have hexit : ∀ stopped, Sound cfg (s.setWorker i
      { w with connectionOpen := false, phase := .exited, stopped := stopped }) := by
    intro stopped
    apply h.evolve hget <;> try rfl
    · intro ha
      exact ⟨(hw.acked ha).1, rfl⟩
    · simp [hphase]
    · simp [hphase]
    · simp
    · intro _
      exact hw.drained (by simp [hphase])
    · simp
    · simp
    · exact fun _ => trivial
  unfold ReadPool.workerStopped
  dsimp only
  split
  · exact ⟨hexit w.stopped, hadv⟩
  · have hcount : Sound cfg { s.setWorker i
        { w with connectionOpen := false, phase := .exited, stopped := true } with
        stoppedWorkerCount := s.stoppedWorkerCount + 1 } := { hexit true with }
    split
    · refine ⟨{ hcount with
        stopState := fun hs => ⟨.inr rfl, (h.stopState hs).2⟩, closed := fun _ => hstop
        controls := fun hc => ⟨(h.controls hc).1, by simp⟩, paused := by simp }, ?_⟩
      intro hc
      cases hc
    · exact ⟨hcount, hadv⟩

/-! ## The loop of a worker -/

/-- A worker takes the next item. -/
theorem Sound.take (h : Sound cfg s) (hadv : s.Advanced) (hget : s.workers[i]? = some w)
    (hidle : w.phase = .idle) (hstep : workerStepAt cfg s i w .take = some s') :
    Sound cfg s' ∧ s'.Advanced := by
  have hw := h.workers w (List.mem_of_getElem? hget)
  unfold workerStepAt at hstep
  rw [hidle] at hstep
  dsimp only at hstep
  split at hstep
  · cases hstep
  · rename_i rest hqueue
    obtain rfl := Option.some.inj hstep
    have hlast := hw.stopLast
    rw [hqueue] at hlast
    have hsent : 0 < w.stops := by
      have hcount := hw.stopQueued
      rw [hqueue, List.count_cons_self] at hcount
      omega
    refine ⟨h.setWorker hget ?_ ?_ rfl ?_ ?_, hadv⟩
    · simp [ReadWorker.load, hqueue, hidle]
    · simp [ReadWorker.holding, hqueue, hidle]
    · simp [ReadWorker.pending, hqueue, hidle]
    · refine hw.dequeue hqueue ?_ (fun _ => ⟨hlast, hw.stopSent hsent⟩) (by simp) (by simp)
        (fun _ => trivial) (fun _ => trivial)
      simp [ReadWorker.pending, hqueue, hidle]
  · rename_i rest hqueue
    obtain rfl := Option.some.inj hstep
    refine ⟨h.setWorker hget ?_ ?_ rfl ?_ ?_, hadv⟩
    · simp [ReadWorker.load, hqueue, hidle]
    · simp [ReadWorker.holding, hqueue, hidle]
    · simp [ReadWorker.pending, hqueue, hidle]
    · refine hw.dequeue hqueue ?_ (by simp) (by simp) (by simp) (by simp) ?_
      · simp [ReadWorker.pending, hqueue, hidle]
      · simp [hidle]
  · rename_i c rest hqueue
    obtain rfl := Option.some.inj hstep
    refine ⟨h.setWorker hget ?_ ?_ rfl ?_ ?_, hadv⟩
    · simp [ReadWorker.load, hqueue, hidle]
    · simp [ReadWorker.holding, hqueue, hidle]
    · simp [ReadWorker.pending, hqueue, hidle]
    · refine hw.dequeue hqueue ?_ (by simp) (by simp) (by simp) (by simp) ?_
      · simp [ReadWorker.pending, hqueue, hidle]
      · simp [hidle]

/-- A failing worker takes the next item of its queue. -/
theorem Sound.failQueue (h : Sound cfg s) (hadv : s.Advanced) (hget : s.workers[i]? = some w)
    (hfailing : w.phase = .failing) (hstep : workerStepAt cfg s i w .failQueue = some s') :
    Sound cfg s' ∧ s'.Advanced := by
  have hw := h.workers w (List.mem_of_getElem? hget)
  have hfatal := hw.failed (by simp [hfailing])
  have hconn : w.acked = true → w.connection = false ∧ w.connectionOpen = false :=
    fun ha => ⟨(hw.acked ha).1, (hw.acked ha).2.1⟩
  unfold workerStepAt at hstep
  rw [hfailing] at hstep
  dsimp only at hstep
  split at hstep
  · rename_i hqueue
    obtain rfl := Option.some.inj hstep
    refine ⟨h.evolve hget rfl rfl rfl hconn ?_ ?_ ?_ ?_ (by simp) (by simp) fun _ => trivial, hadv⟩
    · simp [hfailing]
    · simp [hfailing]
    · simp
    · intro _
      exact ⟨by simp [hqueue], h.fatal hfatal⟩
  · rename_i c rest hqueue
    obtain rfl := Option.some.inj hstep
    refine ⟨h.settle hget ?_ ?_ rfl ?_ ?_, hadv⟩
    · simp [ReadWorker.load, hqueue, hfailing]
    · intro d
      simp only [ReadWorker.holding, hqueue, hfailing, ReadPhase.active, List.nil_append,
        PoolItem.requests_request, List.count_cons, List.count_nil]
      omega
    · simp [ReadWorker.pending, hqueue, hfailing]
    · refine hw.dequeue hqueue ?_ (by simp) (fun _ => hfatal) (by simp) (by simp) (fun _ => trivial)
      simp [ReadWorker.pending, hqueue, hfailing]
  · rename_i item rest hitem hqueue
    obtain rfl := Option.some.inj hstep
    have hnone : PoolItem.requests (item :: rest) = PoolItem.requests rest := by
      cases item with
      | request c => exact (hitem c rfl).elim
      | pause => rfl
      | stop => rfl
    have hpause : rest.count .pause ≤ w.queue.count .pause := by
      rw [hqueue]
      exact List.count_le_count_cons
    refine ⟨h.setWorker hget ?_ ?_ rfl ?_ ?_, hadv⟩
    · simp [ReadWorker.load, hqueue, hnone, hfailing]
    · simp [ReadWorker.holding, hqueue, hnone, hfailing]
    · simpa [ReadWorker.pending, hfailing] using hpause
    · refine hw.dequeue hqueue ?_ (by simp) (fun _ => hfatal) (by simp) (fun _ => trivial)
        (fun _ => trivial)
      simpa [ReadWorker.pending, hfailing] using hpause

/-- A worker inside its loop moves on, perhaps closing its connection. -/
theorem Sound.goTo (h : Sound cfg s) (hget : s.workers[i]? = some w) (closed : Bool)
    {phase : ReadPhase} (howns : phase.owns = w.phase.owns) (hactive : phase.active = w.phase.active)
    (hpauses : phase.pauses ≤ w.phase.pauses)
    (hover : phase.Over → PoolItem.requests w.queue = [] ∧ s.stopEnqueued = true)
    (hfailed : phase.Failed → s.fatalError = true)
    (hclosed : phase = .acknowledging → closed = true)
    (hends : w.phase.Ending → phase.Ending) :
    Sound cfg (s.setWorker i { w.closing closed with phase := phase }) := by
  have hw := h.workers w (List.mem_of_getElem? hget)
  cases closed with
  | true =>
    exact h.evolve hget rfl rfl rfl (fun _ => ⟨rfl, rfl⟩) howns hactive hpauses hover hfailed
      (fun _ => ⟨rfl, rfl⟩) hends
  | false =>
    exact h.evolve hget rfl rfl rfl (fun ha => ⟨(hw.acked ha).1, (hw.acked ha).2.1⟩) howns hactive
      hpauses hover hfailed (fun ha => nomatch hclosed ha) hends

/-- A worker settles its active request, perhaps closing its connection. -/
theorem Sound.finishRequest (h : Sound cfg s) (hget : s.workers[i]? = some w) (closed : Bool) {c : Nat}
    (hactive : w.phase.active = [c]) (howns : w.phase.owns = 1) (hloop : ¬ w.phase.Ending) :
    Sound cfg (s.settle i { w.closing closed with phase := .releasing c } c) := by
  have hw := h.workers w (List.mem_of_getElem? hget)
  cases closed with
  | true =>
    exact h.complete hget rfl rfl rfl (fun _ => ⟨rfl, rfl⟩) howns.symm hactive rfl (Nat.zero_le _)
      id nofun nofun (fun he => absurd he hloop)
  | false =>
    exact h.complete hget rfl rfl rfl (fun ha => ⟨(hw.acked ha).1, (hw.acked ha).2.1⟩) howns.symm
      hactive rfl (Nat.zero_le _) id nofun nofun (fun he => absurd he hloop)

theorem Sound.workerStepAt (h : Sound cfg s) (hadv : s.Advanced) (hget : s.workers[i]? = some w)
    {action : PoolWorkerAction} (hstep : workerStepAt cfg s i w action = some s') :
    Sound cfg s' ∧ s'.Advanced := by
  have hw := h.workers w (List.mem_of_getElem? hget)
  cases hphase : w.phase with
  | idle =>
    cases action
    case take => exact h.take hadv hget hphase hstep
    case takeFails =>
      simp only [ReadPool.workerStepAt, hphase] at hstep
      obtain rfl := Option.some.inj hstep
      refine ⟨h.goTo hget false ?_ ?_ ?_ ?_ ?_ ?_ ?_, hadv⟩ <;> simp [hphase]
    all_goals simp [ReadPool.workerStepAt, hphase] at hstep
  | checking c retry =>
    cases action
    case check verdict =>
      simp only [ReadPool.workerStepAt, hphase] at hstep
      cases verdict <;> obtain rfl := Option.some.inj hstep
      case proceeds =>
        refine ⟨h.goTo hget false ?_ ?_ ?_ ?_ ?_ ?_ ?_, hadv⟩ <;> simp [hphase]
      all_goals
        refine ⟨h.finishRequest hget false ?_ ?_ ?_, hadv⟩ <;> simp [hphase]
    all_goals simp [ReadPool.workerStepAt, hphase] at hstep
  | connecting c retry =>
    cases action
    case connect outcome =>
      simp only [ReadPool.workerStepAt, hphase] at hstep
      cases outcome with
      | reused =>
        dsimp only at hstep
        split at hstep
        · obtain rfl := Option.some.inj hstep
          refine ⟨h.goTo hget false ?_ ?_ ?_ ?_ ?_ ?_ ?_, hadv⟩ <;> simp [hphase]
        · cases hstep
      | opened =>
        obtain rfl := Option.some.inj hstep
        have hnot := h.owner_not_acked hget (by simp [ReadWorker.load, hphase])
        refine ⟨h.evolve hget rfl rfl rfl ?_ ?_ ?_ ?_ (by simp) (by simp) (by simp) ?_, hadv⟩
        · intro ha
          rw [hnot] at ha
          cases ha
        all_goals simp [hphase]
      | sqliteError closed =>
        obtain rfl := Option.some.inj hstep
        refine ⟨h.goTo hget closed ?_ ?_ ?_ ?_ ?_ ?_ ?_, hadv⟩ <;> simp [hphase]
      | otherError closed =>
        obtain rfl := Option.some.inj hstep
        refine ⟨h.goTo hget closed ?_ ?_ ?_ ?_ ?_ ?_ ?_, hadv⟩ <;> simp [hphase]
    all_goals simp [ReadPool.workerStepAt, hphase] at hstep
  | executing c retry =>
    cases action
    case execute outcome =>
      simp only [ReadPool.workerStepAt, hphase] at hstep
      cases outcome <;> obtain rfl := Option.some.inj hstep
      case returned =>
        refine ⟨h.finishRequest hget false ?_ ?_ ?_, hadv⟩ <;> simp [hphase]
      all_goals
        refine ⟨h.goTo hget false ?_ ?_ ?_ ?_ ?_ ?_ ?_, hadv⟩ <;> simp [hphase]
    all_goals simp [ReadPool.workerStepAt, hphase] at hstep
  | sqliteFailed c retry =>
    cases action
    case recover outcome =>
      simp only [ReadPool.workerStepAt, hphase] at hstep
      cases outcome with
      | completes closed =>
        obtain rfl := Option.some.inj hstep
        refine ⟨h.finishRequest hget closed ?_ ?_ ?_, hadv⟩ <;> simp [hphase]
      | retries =>
        cases retry with
        | true =>
          obtain rfl := Option.some.inj hstep
          refine ⟨h.finishRequest hget true ?_ ?_ ?_, hadv⟩ <;> simp [hphase]
        | false =>
          obtain rfl := Option.some.inj hstep
          refine ⟨h.goTo hget true ?_ ?_ ?_ ?_ ?_ ?_ ?_, hadv⟩ <;> simp [hphase]
      | raises closed =>
        obtain rfl := Option.some.inj hstep
        refine ⟨h.goTo hget closed ?_ ?_ ?_ ?_ ?_ ?_ ?_, hadv⟩ <;> simp [hphase]
    all_goals simp [ReadPool.workerStepAt, hphase] at hstep
  | otherFailed c =>
    cases action
    case recover outcome =>
      simp only [ReadPool.workerStepAt, hphase] at hstep
      cases outcome with
      | completes closed =>
        obtain rfl := Option.some.inj hstep
        refine ⟨h.finishRequest hget closed ?_ ?_ ?_, hadv⟩ <;> simp [hphase]
      | retries => cases hstep
      | raises closed =>
        obtain rfl := Option.some.inj hstep
        refine ⟨h.goTo hget closed ?_ ?_ ?_ ?_ ?_ ?_ ?_, hadv⟩ <;> simp [hphase]
    all_goals simp [ReadPool.workerStepAt, hphase] at hstep
  | releasing c =>
    cases action
    case release =>
      simp only [ReadPool.workerStepAt, hphase] at hstep
      obtain ⟨s₁, w₁, hs₁, hget₁, hsound⟩ := h.release hget .idle (by simp [hphase]) rfl
        (by simp [hphase]) (by simp) (by simp) (by simp) (by simp) (by simp [hphase])
      rw [hs₁] at hstep
      dsimp only at hstep
      rw [hget₁] at hstep
      obtain rfl := Option.some.inj hstep
      exact hsound
    all_goals simp [ReadPool.workerStepAt, hphase] at hstep
  | pausing =>
    cases action
    case closeForPause closes =>
      simp only [ReadPool.workerStepAt, hphase] at hstep
      cases closes <;> obtain rfl := Option.some.inj hstep
      case false =>
        refine ⟨h.goTo hget false ?_ ?_ ?_ ?_ ?_ ?_ ?_, hadv⟩ <;> simp [hphase]
      case true =>
        refine ⟨h.goTo hget true ?_ ?_ ?_ ?_ ?_ (fun _ => rfl) ?_, hadv⟩ <;> simp [hphase]
    all_goals simp [ReadPool.workerStepAt, hphase] at hstep
  | acknowledging =>
    cases action
    case acknowledge =>
      simp only [ReadPool.workerStepAt, hphase] at hstep
      obtain rfl := Option.some.inj hstep
      exact h.acknowledge hadv hget hphase
    all_goals simp [ReadPool.workerStepAt, hphase] at hstep
  | fatal active =>
    cases action
    case beginFailure =>
      simp only [ReadPool.workerStepAt, hphase] at hstep
      obtain rfl := Option.some.inj hstep
      exact h.beginFailure hadv hget hphase
    all_goals simp [ReadPool.workerStepAt, hphase] at hstep
  | failingActive active =>
    have hfatal := hw.failed (by simp [hphase])
    cases action
    case failActive =>
      simp only [ReadPool.workerStepAt, hphase] at hstep
      cases active with
      | none =>
        obtain rfl := Option.some.inj hstep
        refine ⟨h.goTo hget false ?_ ?_ ?_ ?_ (fun _ => hfatal) ?_ ?_, hadv⟩ <;>
          simp [hphase]
      | some c =>
        have hnot : c ∉ s.resolved :=
          h.holding_unsettled hget (by simp [ReadWorker.holding, hphase])
        simp only [if_neg hnot] at hstep
        obtain rfl := Option.some.inj hstep
        refine ⟨h.complete hget rfl rfl rfl (fun ha => ⟨(hw.acked ha).1, (hw.acked ha).2.1⟩) ?_ ?_
          rfl ?_ ?_ (fun _ => hfatal) ?_ (fun _ => trivial), hadv⟩ <;> simp [hphase]
    all_goals simp [ReadPool.workerStepAt, hphase] at hstep
  | releasingFailed =>
    have hfatal := hw.failed (by simp [hphase])
    cases action
    case release =>
      simp only [ReadPool.workerStepAt, hphase] at hstep
      obtain ⟨s₁, w₁, hs₁, hget₁, hsound⟩ := h.release hget .failing (by simp [hphase])
        rfl (by simp [hphase]) (by simp) (by simp) (fun _ => hfatal) (by simp) (fun _ => trivial)
      rw [hs₁] at hstep
      dsimp only at hstep
      rw [hget₁] at hstep
      obtain rfl := Option.some.inj hstep
      exact hsound
    all_goals simp [ReadPool.workerStepAt, hphase] at hstep
  | failing =>
    cases action
    case failQueue => exact h.failQueue hadv hget hphase hstep
    all_goals simp [ReadPool.workerStepAt, hphase] at hstep
  | finishing =>
    have hover := hw.drained (by simp [hphase])
    cases action
    case closeAtEnd closes raises =>
      simp only [ReadPool.workerStepAt, hphase] at hstep
      obtain rfl := Option.some.inj hstep
      refine ⟨h.goTo hget closes ?_ ?_ ?_ (fun _ => hover) ?_ ?_ ?_, hadv⟩ <;>
        cases raises <;> simp [hphase]
    all_goals simp [ReadPool.workerStepAt, hphase] at hstep
  | stopping =>
    cases action
    case stopped =>
      simp only [ReadPool.workerStepAt, hphase] at hstep
      obtain rfl := Option.some.inj hstep
      exact h.workerStopped hadv hget hphase
    all_goals simp [ReadPool.workerStepAt, hphase] at hstep
  | exited =>
    cases action
    all_goals simp [ReadPool.workerStepAt, hphase] at hstep

/-! ## Callers, pausers and closers -/

theorem Sound.submit (h : Sound cfg s) (hadv : s.Advanced) :
    Sound cfg (s.submit cfg) ∧ (s.submit cfg).Advanced := by
  unfold ReadPool.submit
  split
  · exact ⟨h, hadv⟩
  · rename_i hopen
    simp only [ne_eq, not_not] at hopen
    have hkeeps : Keeps cfg.queueCapacity (decide (s.state = .opened)) s.adm
        (s.adm.acquire cfg.queueCapacity cfg.maxWaiters) := by
      rw [decide_eq_true hopen]
      exact acquire_keeps
    refine ⟨h.withAdm hkeeps, fun hclosing => ?_⟩
    rw [show s.state = .closing from hclosing] at hopen
    cases hopen

theorem Sound.unwind (h : Sound cfg s) {c : Nat} (hstep : s.unwind cfg c = some s') :
    Sound cfg s' ∧ s'.Advanced := by
  obtain ⟨adm, hmove, rfl⟩ := Option.map_eq_some_iff.mp hstep
  have hkeeps : Keeps cfg.queueCapacity (decide (s.state = .opened)) s.adm adm :=
    move_keeps hmove rfl fun _ => .inr rfl
  exact (h.withAdm ((hkeeps.trans revoke_keeps).trans cancelFuture_keeps)).regrant

/-- An admitted caller keeps the pool from sending controls. -/
theorem Sound.admitted_pos (h : Sound cfg s) (hpos : 0 < s.adm.admitted) : 0 < s.adm.outstanding := by
  have howed := h.owed
  unfold Admission.owed at howed
  omega

theorem Sound.dispatch (h : Sound cfg s) {c : Nat}
    (hstep : s.dispatch cfg c = some s') : Sound cfg s' ∧ s'.Advanced := by
  unfold ReadPool.dispatch at hstep
  split at hstep
  · obtain ⟨adm, hmove, rfl⟩ := Option.map_eq_some_iff.mp hstep
    obtain ⟨howed, hout, -, -, hgone⟩ := move_holder hmove rfl rfl
    apply Sound.advanceLifecycle
    apply h.withAdm
    refine ⟨?_, ?_, ?_, hgone⟩
    · rw [owed_release, howed]
      omega
    · intro hb
      show adm.outstanding - 1 ≤ (cfg.queueCapacity : Int)
      omega
    · intro _
      show adm.outstanding - 1 ≤ s.adm.outstanding
      omega
  · rename_i halive
    push Not at halive
    obtain ⟨hfatal, hclosed⟩ := halive
    obtain ⟨adm, hmove, rfl⟩ := Option.map_eq_some_iff.mp hstep
    obtain ⟨howed, hout, hstill, hnow, hgone⟩ := move_holder hmove rfl rfl
    have hpos := h.admitted_pos (move_pos hmove rfl)
    have hnostop : s.stopEnqueued = false := by
      cases hs : s.stopEnqueued with
      | false => rfl
      | true =>
        rcases (h.stopState hs).2 with hz | hf
        · omega
        · exact absurd hf hfatal
    have hcontrols : s.pauseControlsEnqueued = false := by
      cases hc : s.pauseControlsEnqueued with
      | false => rfl
      | true =>
        have hz := (h.controls hc).1
        omega
    have hnotquiet : ¬ s.Quiet := fun hq => absurd (hcontrols.symm.trans hq.1) (by simp)
    obtain ⟨w, hget⟩ : ∃ w, s.workers[s.nextWorker]? = some w :=
      ⟨_, List.getElem?_eq_getElem (h.size ▸ h.next)⟩
    have hmem := List.mem_of_getElem? hget
    have hw := h.workers w hmem
    rw [hnostop] at hw
    have hunset : w.stops = 0 := by
      by_contra hne
      exact absurd (hw.stopSent (Nat.pos_of_ne_zero hne)) (by simp)
    have hnotin : PoolItem.stop ∉ w.queue := by
      intro hm
      have hcount := hw.stopQueued
      have hone := List.count_pos_iff.mpr hm
      omega
    have hset : s.workers.modify s.nextWorker (·.push (.request c)) =
        s.workers.set s.nextWorker (w.push (.request c)) := by
      apply List.ext_getElem?
      intro j
      rw [List.getElem?_modify, List.getElem?_set]
      by_cases hj : s.nextWorker = j
      · subst hj
        obtain ⟨hlt, hval⟩ := List.getElem?_eq_some_iff.mp hget
        simp [hlt, hval]
      · simp [hj]
    rw [hset]
    refine ⟨{ h with
      size := ?_, next := Nat.mod_lt _ cfg.connections_pos, owed := ?_, bounded := ?_, counted := ?_
      gone := ?_, nodup := ?_, stopState := ?_, controls := ?_, acks := ?_, fresh := ?_
      paused := fun hp => absurd (h.paused hp) hnotquiet
      held := fun hh => absurd (h.held hh) hnotquiet, workers := ?_ }, ?_⟩
    · rw [List.length_set]
      exact h.size
    · have hsum := List.sum_map_set_add hget (w.push (.request c)) ReadWorker.load
      have hload : (w.push (.request c)).load = w.load + 1 := by
        simp [ReadWorker.load, ReadWorker.push, PoolItem.requests, PoolItem.request?]
        omega
      have hs := h.owed
      show adm.owed =
        (((s.workers.set s.nextWorker (w.push (.request c))).map ReadWorker.load).sum : Int)
      omega
    · show adm.outstanding ≤ (cfg.queueCapacity : Int)
      rw [hout]
      exact h.bounded
    · intro d
      have hsum := List.sum_map_set_add hget (w.push (.request c)) fun v => v.holding.count d
      have hhold : (w.push (.request c)).holding.count d = w.holding.count d + [c].count d := by
        simp [ReadWorker.holding, ReadWorker.push, PoolItem.requests, PoolItem.request?,
          List.count_append]
        omega
      have hs := h.counted d
      show (s.dispatched ++ [c]).count d = s.resolved.count d +
        ((s.workers.set s.nextWorker (w.push (.request c))).map fun v => v.holding.count d).sum
      rw [List.count_append]
      omega
    · intro d hd
      rcases List.mem_append.mp hd with hd | hd
      · exact hgone d (h.gone d hd)
      · rw [List.mem_singleton.mp hd]
        exact hnow (.inl rfl)
    · refine List.nodup_append.mpr ⟨h.nodup, List.pairwise_singleton _ c, ?_⟩
      rintro d hd e he rfl
      rw [List.mem_singleton.mp he] at hd
      exact hstill (h.gone c hd)
    · intro hs
      exact absurd (hnostop.symm.trans hs) (by simp)
    · intro hc
      exact absurd (hcontrols.symm.trans hc) (by simp)
    · have hcount := List.countP_set_add hget (w.push (.request c)) (fun v => v.acked)
      have hs := h.acks
      have hsame : (w.push (.request c)).acked = w.acked := rfl
      rw [hsame] at hcount
      show s.pauseAckCount = (s.workers.set s.nextWorker (w.push (.request c))).countP (·.acked)
      omega
    · intro hc v hv
      rcases mem_of_set hv with hv | rfl
      · exact h.fresh hc v hv
      · simpa [ReadWorker.push, ReadWorker.pending] using h.fresh hc w hmem
    · intro v hv
      rcases mem_of_set hv with hv | rfl
      · exact h.workers v hv
      · rw [hnostop]
        refine { hw with
          stopQueued := ?_, stopLast := hw.stopLast.append (.inl hnotin), drained := ?_, acked := ?_
          pausedOnce := ?_, ends := by simp }
        · simpa [ReadWorker.push] using hw.stopQueued
        · intro ho
          exact absurd (hw.drained ho).2 (by simp)
        · intro ha
          exact absurd ((h.fresh hcontrols w hmem).1.symm.trans ha) (by simp)
        · simpa [ReadWorker.push, ReadWorker.pending] using hw.pausedOnce
    · intro _ hz
      change adm.outstanding = 0 at hz
      omega

theorem Sound.close (h : Sound cfg s) (hadv : s.Advanced) :
    Sound cfg s.close ∧ s.close.Advanced := by
  unfold ReadPool.close
  split
  · exact ⟨h, hadv⟩
  · rename_i hopen
    push Not at hopen
    apply Sound.advanceLifecycle
    refine Sound.settlePause ?_ _ _ nofun
    have hadm := h.withAdm rejectWaiters_keeps
    refine { hadm with
      stopState := ?_, closed := nofun, controls := fun hc => ⟨(hadm.controls hc).1, nofun⟩
      paused := nofun }
    intro hs
    rcases (h.stopState hs).1 with hc | hc
    · exact absurd hc hopen.1
    · exact absurd hc hopen.2

/-- The waiting pausers are told later; a new one changes nothing else. -/
theorem Sound.addPauser (h : Sound cfg s) (phase : PauserPhase) (hphase : phase ≠ .completed) :
    Sound cfg { s with pausers := s.pausers ++ [phase] } := by
  refine { h with held := ?_ }
  rintro (hheld | hcompleted)
  · exact h.held (.inl hheld)
  · rcases List.mem_append.mp hcompleted with hm | hm
    · exact h.held (.inr hm)
    · exact absurd (List.mem_singleton.mp hm).symm hphase

theorem Sound.pauseAndDrain (h : Sound cfg s) (hadv : s.Advanced) :
    Sound cfg s.pauseAndDrain ∧ s.pauseAndDrain.Advanced := by
  unfold ReadPool.pauseAndDrain
  split
  · rename_i hstate
    have hadd := h.addPauser .returned nofun
    exact ⟨{ hadd with held := fun _ => h.paused hstate }, hadv⟩
  · rename_i hstate
    have hadm := h.withAdm rejectWaiters_keeps
    have hpausing : Sound cfg { s with
        state := .pausing, pauseComplete := some .pending, adm := s.adm.rejectWaiters } := by
      refine { hadm with
        stopState := ?_, closed := nofun, controls := ?_, paused := nofun }
      · intro hs
        rcases (h.stopState hs).1 with hc | hc <;> rw [hstate] at hc <;> cases hc
      · intro hc
        exact absurd hstate (h.controls hc).2
    obtain ⟨hsound, hadv'⟩ := hpausing.advanceLifecycle
    exact ⟨hsound.addPauser _ nofun, hadv'⟩
  · exact ⟨h.addPauser _ nofun, hadv⟩
  · exact ⟨h, hadv⟩
  · exact ⟨h, hadv⟩

theorem Sound.pauserReturns (h : Sound cfg s) (hadv : s.Advanced) {p : Nat}
    (hstep : s.pauserReturns p = some s') : Sound cfg s' ∧ s'.Advanced := by
  have hset : ∀ phase : PauserPhase, phase ≠ .completed → .completed ∈ s.pausers.set p phase →
      .completed ∈ s.pausers := by
    intro phase hne hm
    rcases List.mem_or_eq_of_mem_set hm with hm | heq
    · exact hm
    · exact absurd heq.symm hne
  unfold ReadPool.pauserReturns at hstep
  split at hstep
  · rename_i hget
    obtain rfl := Option.some.inj hstep
    have hquiet := h.held (.inr (List.mem_of_getElem? hget))
    exact ⟨{ h with held := fun _ => hquiet }, hadv⟩
  · obtain rfl := Option.some.inj hstep
    exact ⟨{ h with held := fun hh => h.held (hh.imp_right (hset .raised nofun)) }, hadv⟩
  · cases hstep

/-- A resume that comes when every pauser of the completed pause has returned. -/
def Timely (s : ReadPool) : Prop :=
  .completed ∉ s.pausers

theorem Sound.resume (h : Sound cfg s) (hadv : s.Advanced) (htimely : s.Timely) :
    Sound cfg s.resume ∧ s.resume.Advanced := by
  have hunheld : Sound cfg { s with held := false } :=
    { h with held := fun hh => h.held (hh.imp_left nofun) }
  unfold ReadPool.resume
  split
  · rename_i hstate
    obtain ⟨hcontrols, hall⟩ := h.paused hstate
    have hload : (ReadWorker.load ∘ fun w => { w with acked := false }) = ReadWorker.load := rfl
    refine ⟨{ h with
      size := ?_, owed := ?_, counted := ?_, stopState := ?_, closed := nofun, controls := nofun
      acks := ?_, fresh := ?_, paused := nofun, held := ?_, workers := ?_ }, nofun⟩
    · rw [List.length_map]
      exact h.size
    · rw [List.map_map, hload]
      exact h.owed
    · intro c
      have hhold : ((fun w => w.holding.count c) ∘ fun w : ReadWorker => { w with acked := false }) =
          fun w => w.holding.count c := rfl
      rw [List.map_map, hhold]
      exact h.counted c
    · intro hs
      rcases (h.stopState hs).1 with hc | hc <;> rw [hstate] at hc <;> cases hc
    · simp [List.countP_map, Function.comp_def]
    · intro _ v hv
      obtain ⟨u, hu, rfl⟩ := List.mem_map.mp hv
      exact ⟨rfl, ((h.workers u hu).acked (hall u hu)).2.2⟩
    · rintro (hheld | hcompleted)
      · cases hheld
      · exact absurd hcompleted htimely
    · intro v hv
      obtain ⟨u, hu, rfl⟩ := List.mem_map.mp hv
      exact { h.workers u hu with acked := nofun }
  · exact ⟨hunheld, hadv⟩
  · exact ⟨hunheld, hadv⟩
  · exact ⟨hunheld, hadv⟩
  · exact ⟨h, hadv⟩


/-- The condition on a step: a resume is timely. -/
def CleanStep (s : ReadPool) : Action → Prop
  | .resume => s.Timely
  | _ => True

/-- A step within admission that takes and releases no slot. -/
theorem Sound.withAdm_same (h : Sound cfg s) (hadv : s.Advanced) {adm : Admission}
    (hkeeps : Keeps cfg.queueCapacity (decide (s.state = .opened)) s.adm adm)
    (hout : adm.outstanding = s.adm.outstanding) :
    Sound cfg { s with adm := adm } ∧ Advanced { s with adm := adm } :=
  ⟨h.withAdm hkeeps, fun hclosing hz => hadv hclosing (hout.symm.trans hz)⟩

theorem Sound.step (h : Sound cfg s) (hadv : s.Advanced) {action : Action}
    (hclean : CleanStep s action) (hstep : s.step cfg action = some s') :
    Sound cfg s' ∧ s'.Advanced := by
  cases action with
  | submit =>
    obtain rfl := Option.some.inj hstep
    exact h.submit hadv
  | scheduleGrant c =>
    obtain ⟨adm, hadm, rfl⟩ := Option.map_eq_some_iff.mp hstep
    exact h.withAdm_same hadv (scheduleGrant_keeps hadm) (scheduleGrant_outstanding hadm)
  | failGrant c =>
    obtain ⟨adm, hadm, rfl⟩ := Option.map_eq_some_iff.mp hstep
    exact (h.withAdm (failGrant_keeps hadm)).regrant
  | deliverGrant c =>
    obtain ⟨⟨adm, back⟩, hadm, rfl⟩ := Option.map_eq_some_iff.mp hstep
    cases back with
    | false => exact h.withAdm_same hadv (deliverGrant_keeps hadm) (deliverGrant_outstanding hadm)
    | true => exact (h.withAdm (deliverGrant_keeps hadm)).regrant
  | scheduleRejection c loopOpen =>
    obtain ⟨adm, hadm, rfl⟩ := Option.map_eq_some_iff.mp hstep
    exact h.withAdm_same hadv (scheduleRejection_keeps hadm) (scheduleRejection_outstanding hadm)
  | deliverRejection c =>
    obtain ⟨adm, hadm, rfl⟩ := Option.map_eq_some_iff.mp hstep
    exact h.withAdm_same hadv (deliverRejection_keeps hadm) (deliverRejection_outstanding hadm)
  | interrupt c =>
    obtain ⟨adm, hadm, rfl⟩ := Option.map_eq_some_iff.mp hstep
    exact h.withAdm_same hadv (move_keeps hadm rfl nofun) (move_outstanding hadm)
  | abandon c =>
    obtain ⟨adm, hadm, rfl⟩ := Option.map_eq_some_iff.mp hstep
    exact h.withAdm_same hadv (move_keeps hadm rfl fun _ => .inr rfl) (move_outstanding hadm)
  | resumeCaller c =>
    obtain ⟨adm, hadm, rfl⟩ := Option.map_eq_some_iff.mp hstep
    exact h.withAdm_same hadv (resume_keeps hadm) (resume_outstanding hadm)
  | unwind c => exact h.unwind hstep
  | dispatch c => exact h.dispatch hstep
  | pauseAndDrain =>
    obtain rfl := Option.some.inj hstep
    exact h.pauseAndDrain hadv
  | pauserReturns p => exact h.pauserReturns hadv hstep
  | resume =>
    obtain rfl := Option.some.inj hstep
    exact h.resume hadv hclean
  | close =>
    obtain rfl := Option.some.inj hstep
    exact h.close hadv
  | worker i action =>
    obtain ⟨w, hget, hat⟩ := Option.bind_eq_some_iff.mp hstep
    exact h.workerStepAt hadv hget hat

end ReadPool
end RapidInbox

import RapidInbox.Db.Writer

/-!
# The writer's slots

A slot is owned in turn by a granted waiter, an admitted caller, the queue and the worker.  `Sound`
says how many each of them owns, which requests are settled, and when `_STOP` may be under way.  Every
step preserves it except one: a rollback that raises something other than an `sqlite3.Error` leaves
`_run_request` with the slot released and the future unset, and the `except` branch of `_worker_main`
then releases the slot a second time.
-/

namespace RapidInbox

open Admission

/-- The slots that the worker owns. -/
@[simp] def WriterPhase.owns : WriterPhase → Nat
  | .opening _ | .starting _ | .running _ | .failed _ | .releasing _ _ | .releasingFailed => 1
  | _ => 0

/-- The request that the worker holds and has not settled. -/
@[simp] def WriterPhase.active : WriterPhase → List Nat
  | .opening c | .starting c | .running c | .failed c | .releasing c true => [c]
  | _ => []

/-- The operation that the worker has started and not settled. -/
@[simp] def WriterPhase.started : WriterPhase → List Nat
  | .running c | .failed c => [c]
  | _ => []

/-- The worker is stopping, so the actor has stopped admitting. -/
@[simp] def WriterPhase.Stopping : WriterPhase → Prop
  | .failingActive _ | .failing | .releasingFailed | .finishing | .exited => True
  | _ => False

/-- The worker has left its loop for good. -/
@[simp] def WriterPhase.Over (w : WriterPhase) : Prop :=
  w = .finishing ∨ w = .exited

/-- An exception has left the worker's loop while a request was active. -/
@[simp] def WriterPhase.Broken : WriterPhase → Prop
  | .releasing _ raising => raising = true
  | .fatal active | .failingActive active => active ≠ none
  | _ => False

namespace DatabaseWriter

/-- The requests among the items of a queue. -/
def requests (queue : List QueueItem) : List Nat :=
  queue.filterMap QueueItem.request?

@[simp] theorem requests_request (c : Nat) (rest : List QueueItem) :
    requests (.request c :: rest) = c :: requests rest := rfl

@[simp] theorem requests_stop (rest : List QueueItem) : requests (.stop :: rest) = requests rest := rfl

@[simp] theorem requests_append (front back : List QueueItem) :
    requests (front ++ back) = requests front ++ requests back :=
  List.filterMap_append

theorem length_queue (queue : List QueueItem) :
    queue.length = (requests queue).length + queue.count .stop := by
  induction queue with
  | nil => rfl
  | cons item rest ih =>
    cases item with
    | request c =>
      simp [ih]
      omega
    | stop =>
      simp [ih]
      omega

/-- The requests in the queue. -/
abbrev queued (s : DatabaseWriter) : List Nat :=
  requests s.queue

/-- The invariant of the actor. -/
structure Sound (cfg : WriterConfig) (s : DatabaseWriter) : Prop where
  owed : s.adm.owed = s.queued.length + s.worker.owns
  bounded : s.adm.outstanding ≤ cfg.queueCapacity
  stops : s.stopDue + s.stopsPut ≤ 1
  stopped : 0 < s.stopDue + s.stopsPut →
    s.state ≠ .opened ∧ s.stopEnqueued = true ∧ s.adm.outstanding = 0
  stopQueued : s.queue.count .stop ≤ s.stopsPut
  settled : s.enqueued = s.resolved ++ s.worker.active ++ s.queued
  ran : List.Sublist s.ran (s.resolved ++ s.worker.started)
  gone : ∀ c ∈ s.enqueued, s.adm.Gone c
  nodup : s.enqueued.Nodup
  notFull : s.fullRaised = false
  whole : ¬ s.worker.Broken
  shut : s.worker.Stopping → s.state ≠ .opened
  drained : s.worker.Over → s.queued = []
  closed : s.closed = true → (s.worker = .absent ∨ s.worker = .exited) ∧ s.state = .closed

theorem sound_init (cfg : WriterConfig) : Sound cfg {} where
  owed := rfl
  bounded := Int.natCast_nonneg _
  stops := Nat.zero_le 1
  stopped := nofun
  stopQueued := Nat.le_refl _
  settled := rfl
  ran := List.Sublist.refl _
  gone := nofun
  nodup := List.nodup_nil
  notFull := rfl
  whole := nofun
  shut := nofun
  drained _ := rfl
  closed := nofun

variable {cfg : WriterConfig} {s s' : DatabaseWriter}

/-! ## Admission steps -/

theorem Sound.outstanding_nonneg (h : Sound cfg s) : 0 ≤ s.adm.outstanding := by
  have hle := owed_le s.adm
  have howed := h.owed
  omega

/-- Slots move within admission. -/
theorem Sound.withAdm (h : Sound cfg s) {adm : Admission}
    (hkeeps : Keeps cfg.queueCapacity (decide (s.state = .opened)) s.adm adm) :
    Sound cfg { s with adm := adm } := by
  have howed := hkeeps.owed.trans h.owed
  refine { h with
    owed := howed
    bounded := hkeeps.bounded h.bounded
    stopped := ?_
    gone := fun c hc => hkeeps.gone c (h.gone c hc) }
  intro hstop
  obtain ⟨hstate, hflag, hzero⟩ := h.stopped hstop
  have hle := hkeeps.shut (decide_eq_false hstate)
  have hnonneg := owed_le adm
  refine ⟨hstate, hflag, ?_⟩
  show adm.outstanding = 0
  omega

theorem Sound.prepareStop (h : Sound cfg s) : Sound cfg s.prepareStop := by
  unfold DatabaseWriter.prepareStop
  split
  · rename_i hcond
    obtain ⟨hstate, hzero, hflag⟩ := hcond
    have hnone : s.stopDue + s.stopsPut = 0 := by
      by_contra hne
      have hset := (h.stopped (Nat.pos_of_ne_zero hne)).2.1
      rw [hflag] at hset
      cases hset
    refine { h with stops := ?_, stopped := ?_ }
    · show s.stopDue + 1 + s.stopsPut ≤ 1
      omega
    · intro _
      exact ⟨by simp [hstate], rfl, hzero⟩
  · exact h

theorem Sound.regrant (h : Sound cfg s) : Sound cfg (s.regrant cfg) :=
  (h.withAdm grantWaiters_keeps).prepareStop

/-- The worker's phase does not take part in a regrant. -/
theorem regrant_worker (s : DatabaseWriter) (w : WriterPhase) :
    regrant cfg { s with worker := w } = { regrant cfg s with worker := w } := by
  unfold DatabaseWriter.regrant DatabaseWriter.prepareStop
  dsimp only
  split <;> rfl

/-- Releasing the slot that the worker owns. -/
theorem Sound.release (h : Sound cfg s) {w : WriterPhase} (hfrom : s.worker.owns = 1)
    (hto : w.owns = 0) (hactive : w.active = s.worker.active) (hstarted : w.started = s.worker.started)
    (hwhole : ¬ w.Broken) (hshut : w.Stopping → s.worker.Stopping) (hover : ¬ w.Over) :
    ∃ s₁, releaseCapacity cfg s = some s₁ ∧ Sound cfg { s₁ with worker := w } := by
  have howed := h.owed
  have hle := owed_le s.adm
  rw [hfrom] at howed
  have hpos : ¬ s.adm.outstanding ≤ 0 := by omega
  refine ⟨_, if_neg hpos, ?_⟩
  rw [← regrant_worker]
  apply Sound.regrant
  refine { h with
    owed := ?_, bounded := ?_, stopped := ?_, settled := ?_, ran := ?_, gone := h.gone
    whole := hwhole, shut := fun hw => h.shut (hshut hw), drained := fun hw => absurd hw hover
    closed := ?_ }
  · show Admission.owed { s.adm with outstanding := s.adm.outstanding - 1 } =
      (s.queued.length : Int) + w.owns
    rw [owed_release, hto]
    omega
  · have hb := h.bounded
    show s.adm.outstanding - 1 ≤ (cfg.queueCapacity : Int)
    omega
  · intro hstop
    have hzero := (h.stopped hstop).2.2
    omega
  · rw [hactive]
    exact h.settled
  · rw [hstarted]
    exact h.ran
  · intro hc
    obtain ⟨hw, -⟩ := h.closed hc
    rcases hw with hw | hw <;> rw [hw] at hfrom <;> cases hfrom

/-! ## The steps -/

theorem Sound.submit (h : Sound cfg s) (starts : Bool) : Sound cfg (s.submit cfg starts) := by
  unfold DatabaseWriter.submit
  split
  · exact h
  · rename_i hopen
    simp only [ne_eq, not_not] at hopen
    have hkeeps : Keeps cfg.queueCapacity (decide (s.state = .opened)) s.adm
        (s.adm.acquire cfg.queueCapacity cfg.maxWaiters) := by
      rw [decide_eq_true hopen]
      exact acquire_keeps
    split
    · rename_i hfail
      refine { h with stopped := ?_, shut := nofun, closed := fun _ => ⟨.inl hfail.1, rfl⟩ }
      intro hstop
      exact absurd hopen (h.stopped hstop).1
    · have hadm := h.withAdm hkeeps
      split
      · rename_i habsent
        have howed := hadm.owed
        have hsettled := hadm.settled
        have hran := hadm.ran
        rw [habsent] at howed hsettled hran
        refine { hadm with
          owed := howed, settled := hsettled, ran := hran, whole := nofun, shut := nofun
          drained := ?_, closed := ?_ }
        · rintro (hw | hw) <;> cases hw
        · intro hc
          have hstate := (h.closed hc).2
          rw [hopen] at hstate
          cases hstate
      · exact hadm

theorem Sound.close (h : Sound cfg s) : Sound cfg s.close := by
  unfold DatabaseWriter.close
  split
  · exact h
  · rename_i hopen
    simp only [ne_eq, not_not] at hopen
    have hadm := h.withAdm (rejectWaiters_keeps)
    have hclosing : Sound cfg { s with state := .closing, adm := s.adm.rejectWaiters } := by
      refine { hadm with stopped := ?_, shut := nofun, closed := ?_ }
      · intro hstop
        exact absurd hopen (h.stopped hstop).1
      · intro hc
        have hstate := (h.closed hc).2
        rw [hopen] at hstate
        cases hstate
    dsimp only
    split
    · rename_i hzero
      split
      · rename_i habsent
        refine { hclosing with
          stopped := ?_, shut := nofun, closed := fun _ => ⟨.inl habsent, rfl⟩ }
        intro hstop
        exact absurd hopen (h.stopped hstop).1
      · have hstop := hclosing.prepareStop
        rw [DatabaseWriter.prepareStop, if_pos ⟨rfl, hzero⟩] at hstop
        exact hstop
    · exact hclosing

theorem Sound.cancel (h : Sound cfg s) {c : Nat} (hstep : s.cancel c = some s') : Sound cfg s' := by
  unfold DatabaseWriter.cancel at hstep
  split at hstep
  all_goals cases hstep
  all_goals
    rename_i hget
    exact h.withAdm (.of_setCall hget rfl rfl id (fun _ => Int.le_refl _) (by simp [Call.Gone]))

theorem Sound.unwind (h : Sound cfg s) {c : Nat} (hstep : s.unwind cfg c = some s') :
    Sound cfg s' := by
  obtain ⟨adm, hmove, rfl⟩ := Option.map_eq_some_iff.mp hstep
  have hkeeps : Keeps cfg.queueCapacity (decide (s.state = .opened)) s.adm adm :=
    move_keeps hmove rfl fun _ => .inr rfl
  exact (h.withAdm (hkeeps.trans revoke_keeps)).regrant

/-- A caller that owns a slot gives it back. -/
theorem Sound.giveBack (h : Sound cfg s) {c : Nat} {phase : CallPhase} {adm : Admission}
    (hmove : s.adm.move c phase .left = some adm) (hphase : phase.holds = true) :
    Sound cfg { s with adm := { adm with outstanding := adm.outstanding - 1 } } := by
  obtain ⟨howed, hout, -, -, hgone⟩ := move_holder hmove hphase rfl
  apply h.withAdm
  refine ⟨?_, ?_, ?_, ?_⟩
  · rw [owed_release, howed]
    omega
  · intro hb
    show adm.outstanding - 1 ≤ (cfg.queueCapacity : Int)
    omega
  · intro _
    show adm.outstanding - 1 ≤ s.adm.outstanding
    omega
  · exact hgone

/-- There is room in the queue for an admitted caller. -/
theorem Sound.queue_room (h : Sound cfg s) (hopen : s.state = .opened) (hadmitted : 0 < s.adm.admitted) :
    s.queue.length < cfg.queueCapacity := by
  have hnone : s.stopsPut = 0 := by
    by_contra hne
    exact (h.stopped (by omega)).1 hopen
  have hcount := h.stopQueued
  have hlen : s.queue.length = s.queued.length + s.queue.count .stop := length_queue s.queue
  have howed := h.owed
  have hbound := h.bounded
  unfold Admission.owed at howed
  omega

theorem Sound.dispatch (h : Sound cfg s) {c : Nat} (hstep : s.dispatch cfg c = some s') :
    Sound cfg s' := by
  unfold DatabaseWriter.dispatch at hstep
  split at hstep
  · split at hstep
    · -- an admitted caller owns a slot, so the counter cannot underflow
      rename_i hzero
      obtain ⟨adm, hmove, rfl⟩ := Option.map_eq_some_iff.mp hstep
      have hadmitted := move_pos hmove rfl
      have howed := h.owed
      unfold Admission.owed at howed
      omega
    · obtain ⟨adm, hmove, rfl⟩ := Option.map_eq_some_iff.mp hstep
      exact (h.giveBack hmove rfl).prepareStop
  · rename_i hopen
    simp only [ne_eq, not_not] at hopen
    split at hstep
    · obtain ⟨adm, hmove, rfl⟩ := Option.map_eq_some_iff.mp hstep
      obtain ⟨howed, hout, hstill, hnow, hgone⟩ := move_holder hmove rfl rfl
      have hq : requests (s.queue ++ [QueueItem.request c]) = s.queued ++ [c] := by
        simp [requests, QueueItem.request?]
      refine { h with
        owed := ?_, bounded := ?_, stopped := ?_, stopQueued := ?_, settled := ?_, gone := ?_
        nodup := ?_, drained := ?_ }
      · have hs := h.owed
        show adm.owed = ((requests (s.queue ++ [QueueItem.request c])).length : Int) + s.worker.owns
        rw [hq, howed, List.length_append]
        simp only [List.length_singleton]
        omega
      · show adm.outstanding ≤ (cfg.queueCapacity : Int)
        rw [hout]
        exact h.bounded
      · intro hstop
        exact absurd hopen (h.stopped hstop).1
      · have hs := h.stopQueued
        show (s.queue ++ [QueueItem.request c]).count .stop ≤ s.stopsPut
        simpa using hs
      · show s.enqueued ++ [c] = s.resolved ++ s.worker.active ++
          requests (s.queue ++ [QueueItem.request c])
        rw [hq, h.settled]
        simp
      · intro d hd
        rcases List.mem_append.mp hd with hd | hd
        · exact hgone d (h.gone d hd)
        · rw [List.mem_singleton.mp hd]
          exact hnow (.inl rfl)
      · refine List.nodup_append.mpr ⟨h.nodup, List.pairwise_singleton _ c, ?_⟩
        rintro d hd e he rfl
        rw [List.mem_singleton.mp he] at hd
        exact hstill (h.gone c hd)
      · intro hover
        have hstopping : s.worker.Stopping := by
          rcases hover with hw | hw <;> rw [show s.worker = _ from hw] <;> trivial
        exact absurd hopen (h.shut hstopping)
    · rename_i hfull
      obtain ⟨adm, hmove, rfl⟩ := Option.map_eq_some_iff.mp hstep
      have hadmitted := move_pos hmove rfl
      exact absurd (h.queue_room hopen hadmitted) hfull

theorem Sound.drop (h : Sound cfg s) {c : Nat} (hstep : s.drop cfg c = some s') : Sound cfg s' := by
  obtain ⟨adm, hmove, rfl⟩ := Option.map_eq_some_iff.mp hstep
  obtain ⟨howed, hout, -, -, -⟩ := move_holder hmove rfl rfl
  have hs := h.owed
  have hle := owed_le adm
  have hpos : ¬ adm.outstanding ≤ 0 := by omega
  rw [releaseCapacity, if_neg hpos, Option.getD_some]
  exact (h.giveBack hmove rfl).regrant

theorem Sound.putStop (h : Sound cfg s) (hstep : s.putStop cfg = some s') : Sound cfg s' := by
  unfold DatabaseWriter.putStop at hstep
  split at hstep
  · cases hstep
  · rename_i hdue
    have hstops := h.stops
    obtain ⟨hstate, hflag, hzero⟩ := h.stopped (by omega)
    have hcount := h.stopQueued
    have hempty : s.queue.length = 0 := by
      have hlen : s.queue.length = s.queued.length + s.queue.count .stop := length_queue s.queue
      have howed := h.owed
      have hle := owed_le s.adm
      omega
    have hcap := cfg.capacity_pos
    rw [if_pos (by omega)] at hstep
    obtain rfl := Option.some.inj hstep
    have hq : requests (s.queue ++ [QueueItem.stop]) = s.queued := by
      simp [requests, QueueItem.request?]
    refine { h with
      owed := ?_, stops := ?_, stopped := ?_, stopQueued := ?_, settled := ?_, drained := ?_ }
    · show s.adm.owed = ((requests (s.queue ++ [QueueItem.stop])).length : Int) + s.worker.owns
      rw [hq]
      exact h.owed
    · show s.stopDue - 1 + (s.stopsPut + 1) ≤ 1
      omega
    · intro _
      exact ⟨hstate, hflag, hzero⟩
    · show (s.queue ++ [QueueItem.stop]).count .stop ≤ s.stopsPut + 1
      simp only [List.count_append, List.count_singleton_self]
      omega
    · show s.enqueued = s.resolved ++ s.worker.active ++ requests (s.queue ++ [QueueItem.stop])
      rw [hq]
      exact h.settled
    · intro hw
      show requests (s.queue ++ [QueueItem.stop]) = []
      rw [hq]
      exact h.drained hw

/-! ## The worker's steps -/

theorem Sound.not_closed (h : Sound cfg s) (habsent : s.worker ≠ .absent)
    (hexited : s.worker ≠ .exited) : s.closed = false := by
  cases hc : s.closed with
  | false => rfl
  | true =>
    rcases (h.closed hc).1 with hw | hw
    · exact absurd hw habsent
    · exact absurd hw hexited

/-- The worker goes on with what it owns. -/
theorem Sound.withWorker (h : Sound cfg s) {w : WriterPhase} (howns : w.owns = s.worker.owns)
    (hactive : w.active = s.worker.active) (hstarted : List.Sublist s.worker.started w.started)
    (hwhole : ¬ w.Broken) (hshut : w.Stopping → s.state ≠ .opened) (hover : w.Over → s.queued = [])
    (hclosed : s.closed = false) : Sound cfg { s with worker := w } := by
  have howed := h.owed
  have hsettled := h.settled
  have hran := h.ran.trans (List.Sublist.append_left hstarted _)
  rw [← howns] at howed
  rw [← hactive] at hsettled
  refine { h with
    owed := howed, settled := hsettled, ran := hran, whole := hwhole, shut := hshut, drained := hover
    closed := ?_ }
  intro hc
  rw [hclosed] at hc
  cases hc

/-- The worker settles the request that it holds. -/
theorem Sound.settle (h : Sound cfg s) {c : Nat} {w : WriterPhase} (hactive : s.worker.active = [c])
    (hfrom : s.worker.owns = 1) (howns : w.owns = 1) (hnone : w.active = []) (hstarted : w.started = [])
    (hwhole : ¬ w.Broken) (hshut : w.Stopping → s.state ≠ .opened) (hover : ¬ w.Over) :
    Sound cfg (s.settle c w) := by
  have hsub : List.Sublist s.worker.started [c] := by
    rw [← hactive]
    cases s.worker <;> simp [WriterPhase.started, WriterPhase.active]
  refine { h with
    owed := ?_, settled := ?_, ran := ?_, whole := hwhole, shut := hshut
    drained := fun hw => absurd hw hover, closed := ?_ }
  · have howed := h.owed
    rw [hfrom] at howed
    show s.adm.owed = (s.queued.length : Int) + w.owns
    rw [howns]
    exact howed
  · show s.enqueued = s.resolved ++ [c] ++ w.active ++ s.queued
    rw [hnone, h.settled, hactive, List.append_nil]
  · show List.Sublist s.ran (s.resolved ++ [c] ++ w.started)
    rw [hstarted, List.append_nil]
    exact h.ran.trans (List.Sublist.append_left hsub _)
  · intro hc
    obtain ⟨hw, -⟩ := h.closed hc
    rcases hw with hw | hw <;> rw [hw] at hfrom <;> cases hfrom

/-- The worker takes a request out of the queue. -/
theorem Sound.takeRequest (h : Sound cfg s) {c : Nat} {rest : List QueueItem} {w : WriterPhase}
    (hqueue : s.queue = .request c :: rest) (hidle : s.worker.owns = 0) (hnone : s.worker.active = [])
    (hstarted : s.worker.started = []) (hclosed : s.closed = false) (howns : w.owns = 1)
    (hactive : w.active = [c]) (hstart : w.started = []) (hwhole : ¬ w.Broken)
    (hshut : w.Stopping → s.state ≠ .opened) (hover : ¬ w.Over) :
    Sound cfg { s with queue := rest, worker := w } := by
  have howed := h.owed
  have hsettled := h.settled
  have hran := h.ran
  have hstop := h.stopQueued
  have hq : s.queued = c :: requests rest := by
    unfold queued
    rw [hqueue]
    rfl
  rw [hq, hidle] at howed
  rw [hq, hnone] at hsettled
  rw [hstarted] at hran
  rw [hqueue] at hstop
  refine { h with
    owed := ?_, stopQueued := ?_, settled := ?_, ran := ?_, whole := hwhole, shut := hshut
    drained := fun hw => absurd hw hover, closed := ?_ }
  · show s.adm.owed = ((requests rest).length : Int) + w.owns
    rw [howns, howed]
    simp only [List.length_cons]
    omega
  · show rest.count .stop ≤ s.stopsPut
    simpa using hstop
  · show s.enqueued = s.resolved ++ w.active ++ requests rest
    rw [hactive, hsettled]
    simp
  · show List.Sublist s.ran (s.resolved ++ w.started)
    rw [hstart]
    exact hran
  · intro hc
    rw [hclosed] at hc
    cases hc

/-- The worker takes `_STOP` out of the queue: nothing is owned. -/
theorem Sound.takeStop (h : Sound cfg s) {rest : List QueueItem} {w : WriterPhase}
    (hqueue : s.queue = .stop :: rest) (hclosed : s.closed = false) (howns : w.owns = s.worker.owns)
    (hactive : w.active = s.worker.active) (hstarted : w.started = s.worker.started)
    (hwhole : ¬ w.Broken) : Sound cfg { s with queue := rest, worker := w } := by
  have hcount := h.stopQueued
  have hsome : 0 < s.queue.count .stop := by
    rw [hqueue]
    simp
  obtain ⟨hstate, hflag, hzero⟩ := h.stopped (by omega)
  have howed := h.owed
  have hle := owed_le s.adm
  have hq : s.queued = requests rest := by
    unfold queued
    rw [hqueue]
    rfl
  have hnil : requests rest = [] := by
    rw [← hq]
    exact List.eq_nil_of_length_eq_zero (by omega)
  refine { h with
    owed := ?_, stopQueued := ?_, settled := ?_, ran := ?_, whole := hwhole, shut := fun _ => hstate
    drained := fun _ => hnil, closed := ?_ }
  · show s.adm.owed = ((requests rest).length : Int) + w.owns
    rw [howns, ← hq]
    exact howed
  · show rest.count .stop ≤ s.stopsPut
    rw [hqueue, List.count_cons_self] at hcount
    omega
  · show s.enqueued = s.resolved ++ w.active ++ requests rest
    rw [hactive, ← hq]
    exact h.settled
  · show List.Sublist s.ran (s.resolved ++ w.started)
    rw [hstarted]
    exact h.ran
  · intro hc
    rw [hclosed] at hc
    cases hc

theorem Sound.beginFatalShutdown (h : Sound cfg s) : Sound cfg s.beginFatalShutdown := by
  have hadm := h.withAdm rejectWaiters_keeps
  have hstate : (if s.state = .closed then WriterState.closed else .closing) ≠ .opened := by
    split <;> nofun
  refine { hadm with stopped := ?_, shut := fun _ => hstate, closed := ?_ }
  · intro hstop
    exact ⟨hstate, rfl, (hadm.stopped hstop).2.2⟩
  · intro hc
    obtain ⟨hw, hs⟩ := h.closed hc
    exact ⟨hw, if_pos hs⟩

/-- The steps that keep the invariant: a rollback raises at most an `sqlite3.Error`. -/
def Clean (action : WorkerAction) : Prop :=
  action ≠ .rollback .otherError

theorem Sound.workerStep (h : Sound cfg s) {action : WorkerAction} (hclean : Clean action)
    (hstep : s.workerStep cfg action = some s') : Sound cfg s' := by
  unfold DatabaseWriter.workerStep at hstep
  split at hstep
  -- take
  · rename_i hw
    have hclosed := h.not_closed (by simp [hw]) (by simp [hw])
    split at hstep
    · cases hstep
    · rename_i rest hqueue
      obtain rfl := Option.some.inj hstep
      apply h.takeStop hqueue hclosed <;> simp [hw]
    · rename_i c rest hqueue
      obtain rfl := Option.some.inj hstep
      apply h.takeRequest hqueue
      all_goals cases s.connected <;> simp [hw, hclosed]
  -- takeFails
  · rename_i hw
    obtain rfl := Option.some.inj hstep
    have hclosed := h.not_closed (by simp [hw]) (by simp [hw])
    apply h.withWorker <;> simp [hw, hclosed]
  -- openConnection
  · rename_i c opens hw
    obtain rfl := Option.some.inj hstep
    cases opens with
    | true =>
      have hclosed := h.not_closed (by simp [hw]) (by simp [hw])
      have hnext : Sound cfg { s with worker := .starting c } := by
        apply h.withWorker <;> simp [hw, hclosed]
      exact { hnext with }
    | false => apply h.settle <;> simp [hw]
  -- applyPragmas
  · rename_i c applies hw
    obtain rfl := Option.some.inj hstep
    have hclosed := h.not_closed (by simp [hw]) (by simp [hw])
    cases applies with
    | true =>
      have hnext : Sound cfg { s with worker := .running c } := by
        apply h.withWorker <;> simp [hw, hclosed]
      have hran := h.ran
      simp only [hw, WriterPhase.started, List.append_nil] at hran
      exact { hnext with ran := hran.append_right [c] }
    | false => apply h.withWorker <;> simp [hw, hclosed]
  -- runOperation
  · rename_i c succeeds hw
    obtain rfl := Option.some.inj hstep
    cases succeeds with
    | true => apply h.settle <;> simp [hw]
    | false =>
      have hclosed := h.not_closed (by simp [hw]) (by simp [hw])
      apply h.withWorker <;> simp [hw, hclosed]
  -- rollback
  · rename_i c outcome hw
    obtain rfl := Option.some.inj hstep
    cases outcome with
    | done => apply h.settle <;> simp [hw]
    | sqliteError =>
      have hforget : Sound cfg { s with connected := false } := { h with }
      apply hforget.settle <;> simp [hw]
    | otherError => exact absurd rfl hclean
  -- release
  · rename_i c raising hw
    obtain rfl := Option.some.inj hstep
    have hwhole := h.whole
    simp only [hw, WriterPhase.Broken, Bool.not_eq_true] at hwhole
    subst hwhole
    have hrelease : ∃ s₁, releaseCapacity cfg s = some s₁ ∧ Sound cfg { s₁ with worker := .idle } := by
      apply h.release <;> simp [hw]
    obtain ⟨s₁, hs₁, hsound⟩ := hrelease
    rw [hs₁]
    exact hsound
  -- beginFatalShutdown
  · rename_i active hw
    obtain rfl := Option.some.inj hstep
    have hfatal := h.beginFatalShutdown
    have hclosed := h.not_closed (by simp [hw]) (by simp [hw])
    have hwhole := h.whole
    simp only [hw, WriterPhase.Broken, ne_eq, not_not] at hwhole
    subst hwhole
    have hstate : s.beginFatalShutdown.state ≠ .opened := by
      unfold DatabaseWriter.beginFatalShutdown
      dsimp only
      split <;> nofun
    have hworker : s.beginFatalShutdown.worker = .fatal none := hw
    have hopen : s.beginFatalShutdown.closed = false := hclosed
    apply hfatal.withWorker <;> simp [hworker, hstate, hopen]
  -- failActive
  · rename_i active hw
    obtain rfl := Option.some.inj hstep
    have hclosed := h.not_closed (by simp [hw]) (by simp [hw])
    have hwhole := h.whole
    simp only [hw, WriterPhase.Broken, ne_eq, not_not] at hwhole
    subst hwhole
    have hstate := h.shut (by simp [hw])
    apply h.withWorker <;> simp [hw, hstate, hclosed]
  -- failOwned
  · rename_i hw
    have hclosed := h.not_closed (by simp [hw]) (by simp [hw])
    have hstate := h.shut (by simp [hw])
    split at hstep
    · rename_i hqueue
      obtain rfl := Option.some.inj hstep
      apply h.withWorker <;> simp [hw, hstate, hclosed, hqueue, requests]
    · rename_i rest hqueue
      obtain rfl := Option.some.inj hstep
      have hnext := h.takeStop (w := s.worker) hqueue hclosed rfl rfl rfl h.whole
      exact hnext
    · rename_i c rest hqueue
      obtain rfl := Option.some.inj hstep
      -- as if it had taken the request in its loop, and then failed it
      have htaken : Sound cfg { s with queue := rest, worker := .opening c } := by
        apply h.takeRequest hqueue <;> simp [hw, hclosed]
      have hfailed : Sound cfg
          ({ s with queue := rest, worker := .opening c }.settle c .releasingFailed) := by
        apply htaken.settle <;> simp [hstate]
      exact hfailed
  -- release of a failed request
  · rename_i hw
    obtain rfl := Option.some.inj hstep
    have hrelease :
        ∃ s₁, releaseCapacity cfg s = some s₁ ∧ Sound cfg { s₁ with worker := .failing } := by
      apply h.release <;> simp [hw]
    obtain ⟨s₁, hs₁, hsound⟩ := hrelease
    rw [hs₁]
    exact hsound
  -- finish
  · rename_i closes hw
    obtain rfl := Option.some.inj hstep
    have hclosed := h.not_closed (by simp [hw]) (by simp [hw])
    have hstate := h.shut (by simp [hw])
    have hqueued := h.drained (by simp [hw])
    have hexit : Sound cfg { s with worker := .exited } := by
      apply h.withWorker <;> simp [hw, hstate, hclosed, hqueued]
    split
    · refine { hexit with stopped := ?_, shut := nofun, closed := fun _ => ⟨.inr rfl, rfl⟩ }
      intro hstop
      exact ⟨nofun, (h.stopped hstop).2⟩
    · exact hexit
  · cases hstep

/-- The condition on the actions of a run. -/
def CleanAction : Action → Prop
  | .worker action => Clean action
  | _ => True

theorem Sound.step (h : Sound cfg s) {action : Action} (hclean : CleanAction action)
    (hstep : s.step cfg action = some s') : Sound cfg s' := by
  cases action with
  | submit starts =>
    obtain rfl := Option.some.inj hstep
    exact h.submit starts
  | scheduleGrant c =>
    obtain ⟨adm, hadm, rfl⟩ := Option.map_eq_some_iff.mp hstep
    exact h.withAdm (scheduleGrant_keeps hadm)
  | failGrant c =>
    obtain ⟨adm, hadm, rfl⟩ := Option.map_eq_some_iff.mp hstep
    exact (h.withAdm (failGrant_keeps hadm)).regrant
  | deliverGrant c =>
    obtain ⟨⟨adm, back⟩, hadm, rfl⟩ := Option.map_eq_some_iff.mp hstep
    have hnext := h.withAdm (deliverGrant_keeps hadm)
    cases back with
    | false => exact hnext
    | true => exact hnext.regrant
  | scheduleRejection c loopOpen =>
    obtain ⟨adm, hadm, rfl⟩ := Option.map_eq_some_iff.mp hstep
    exact h.withAdm (scheduleRejection_keeps hadm)
  | deliverRejection c =>
    obtain ⟨adm, hadm, rfl⟩ := Option.map_eq_some_iff.mp hstep
    exact h.withAdm (deliverRejection_keeps hadm)
  | cancel c => exact h.cancel hstep
  | resume c =>
    obtain ⟨adm, hadm, rfl⟩ := Option.map_eq_some_iff.mp hstep
    exact h.withAdm (resume_keeps hadm)
  | unwind c => exact h.unwind hstep
  | dispatch c => exact h.dispatch hstep
  | drop c => exact h.drop hstep
  | putStop => exact h.putStop hstep
  | close =>
    obtain rfl := Option.some.inj hstep
    exact h.close
  | worker action => exact h.workerStep hclean hstep

end DatabaseWriter
end RapidInbox

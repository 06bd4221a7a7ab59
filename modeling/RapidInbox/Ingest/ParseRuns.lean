import RapidInbox.Ingest.ParseAccounting

/-!
# Runs of the parse queue

Producers, a clean-up job, the workers, `drain` and `stop` on one event loop.  A step is what a task
does between two points where it gives up control; a call that waits is known by its number.
-/

namespace RapidInbox.Parser

open EventLoop

/-- How far a call of `stop` has come. -/
inductive StopPhase where
  /-- It awaits `waiter`, with a timeout or without. -/
  | gathering (timeout : Bool)
  /-- It has cancelled the workers and awaits their end; then it returns or raises `CancelledError`. -/
  | cancelling (raises : Bool)
  deriving DecidableEq, Repr

structure ParseSystem where
  queue : ParseQueue
  /-- The calls of `enqueue` in their loop. -/
  enqueues : List (Nat × ParseTask)
  stopping : Option StopPhase
  deriving DecidableEq, Repr

/-- What a step shows. -/
inductive Label where
  | silent
  /-- `try_enqueue` or `enqueue` returns. -/
  | returned (result : Bool)
  | raised (error : QueueError)
  /-- A call raises `CancelledError`. -/
  | cancelled
  /-- `remove_pending` has released the tasks. -/
  | removed (tasks : List ParseTask)
  /-- A worker has ended its task. -/
  | finished (task : ParseTask)
  /-- `drain` returns. -/
  | drained
  /-- `stop` returns or raises. -/
  | stopped
  deriving DecidableEq, Repr

inductive Action where
  | start
  | tryEnqueue (messageId : Text) (rawSizeBytes : Int)
  | enqueue (call : Nat) (messageId : Text) (rawSizeBytes : Int)
  /-- A call of `enqueue` at the head of its loop. -/
  | enqueuePass (call : Nat)
  /-- A call of `enqueue` goes on after its `await`. -/
  | enqueueWoken (call : Nat)
  | cancelEnqueue (call : Nat)
  | removePending (predicate : ParseTask → Bool)
  | takeTask (worker : Nat)
  | finishTask (worker : Nat) (outcome : WorkerOutcome)
  /-- A worker that awaits `get` is cancelled. -/
  | cancelWorker (worker : Nat)
  | drain (call : Nat)
  /-- A call of `drain` goes on after its `await`. -/
  | drainWoken (call : Nat)
  | cancelDrain (call : Nat)
  | stop (discardPending timeout : Bool)
  /-- `await waiter` returns. -/
  | gathered
  /-- `await waiter` raises `TimeoutError`. -/
  | stopTimeout
  /-- `await waiter` raises `CancelledError`: the caller or a worker was cancelled. -/
  | stopCancelled
  /-- The cancelled workers have ended. -/
  | stopGathered

namespace ParseSystem

variable (s : ParseSystem)

/-- `start`. -/
def start : Option ParseSystem :=
  if s.stopping.isNone then some { s with queue := s.queue.start } else none

/-- `enqueue` up to its loop. -/
def enqueue (call : Nat) (messageId : Text) (rawSizeBytes : Int) : Option (ParseSystem × Label) :=
  if call ∈ s.enqueues.map Prod.fst then none
  else
    match s.queue.checkEnqueue messageId rawSizeBytes with
    | .error e => some (s, .raised e)
    | .ok task => some ({ s with enqueues := s.enqueues ++ [(call, task)] }, .silent)

/-- The system without a call of `enqueue`. -/
def withoutCall (call : Nat) : ParseSystem :=
  { s with enqueues := s.enqueues.filter fun c => c.1 ≠ call }

/-- A pass of the loop of a call of `enqueue` that waits for nothing. -/
def enqueuePass (call : Nat) : Option (ParseSystem × Label) :=
  match s.enqueues.lookup call, s.queue.capacityChanged.waiter? call with
  | some task, none =>
    match s.queue.enqueuePass call task with
    | (some result, queue) => some ({ s.withoutCall call with queue }, .returned result)
    | (none, queue) => some ({ s with queue }, .silent)
  | _, _ => none

/-- A call of `enqueue` whose future is done runs again. -/
def enqueueWoken (call : Nat) : Option (ParseSystem × Label) :=
  match s.queue.capacityChanged.waiter? call with
  | some w =>
    if w.done then
      let queue := { s.queue with capacityChanged := s.queue.capacityChanged.leave call }
      if w.raises then some ({ s.withoutCall call with queue }, .cancelled)
      else some ({ s with queue }, .silent)
    else none
  | none => none

def cancelEnqueue (call : Nat) : Option ParseSystem :=
  if (s.queue.capacityChanged.waiter? call).isSome then
    some { s with queue :=
      { s.queue with capacityChanged := s.queue.capacityChanged.cancel call } }
  else none

/-- The system with another event of `join`. -/
def withFinished (e : Event Nat) : ParseSystem :=
  { s with queue := { s.queue with queue := { s.queue.queue with finished := e } } }

/-- `drain` up to its `await`. -/
def drain (call : Nat) : Option (ParseSystem × Label) :=
  let finished := s.queue.queue.finished
  if (finished.waiter? call).isSome then none
  else if 0 < s.queue.queue.unfinishedTasks ∧ !finished.value then
    some (s.withFinished (finished.wait call), .silent)
  else some (s, .drained)

/-- A call of `drain` whose future is done runs again. -/
def drainWoken (call : Nat) : Option (ParseSystem × Label) :=
  let finished := s.queue.queue.finished
  match finished.waiter? call with
  | some w =>
    if w.done then
      some (s.withFinished (finished.leave call), if w.raises then .cancelled else .drained)
    else none
  | none => none

def cancelDrain (call : Nat) : Option ParseSystem :=
  let finished := s.queue.queue.finished
  if (finished.waiter? call).isSome then some (s.withFinished (finished.cancel call)) else none

/-- `stop` up to its `await`. -/
def stop (discardPending timeout : Bool) : Option (Except QueueError (ParseSystem × Label)) :=
  if s.stopping.isSome then none
  else some do
    let (waits, queue) ← s.queue.beginStop discardPending
    if waits then .ok ({ s with queue, stopping := some (.gathering timeout) }, .silent)
    else .ok ({ s with queue }, .stopped)

/-- The `finally` clause of `stop`. -/
def endStop : Except QueueError (ParseSystem × Label) :=
  s.queue.endStop.map fun queue => ({ s with queue, stopping := none }, .stopped)

/-- Every worker has ended. -/
def allDone : Bool := s.queue.workers.all WorkerState.isDone

/-- One step; an exception inside the queue ends the run. -/
def step : Action → Option (Except QueueError (ParseSystem × Label))
  | .start => s.start.map fun s => .ok (s, .silent)
  | .tryEnqueue messageId rawSizeBytes =>
    match s.queue.tryEnqueue messageId rawSizeBytes with
    | .error e => some (.ok (s, .raised e))
    | .ok (result, queue) => some (.ok ({ s with queue }, .returned result))
  | .enqueue call messageId rawSizeBytes => (s.enqueue call messageId rawSizeBytes).map .ok
  | .enqueuePass call => (s.enqueuePass call).map .ok
  | .enqueueWoken call => (s.enqueueWoken call).map .ok
  | .cancelEnqueue call => (s.cancelEnqueue call).map fun s => .ok (s, .silent)
  | .removePending predicate =>
    some ((s.queue.removePending predicate).map fun (_, queue) =>
      ({ s with queue }, .removed (s.queue.pendingTasks.filter predicate)))
  | .takeTask worker =>
    (s.queue.takeTask worker).map fun r => r.map fun queue => ({ s with queue }, .silent)
  | .finishTask worker outcome =>
    (s.queue.finishTask worker outcome).map fun r =>
      r.map fun (task, queue) => ({ s with queue }, .finished task)
  | .cancelWorker worker =>
    (s.queue.cancelWorker worker).map fun queue => .ok ({ s with queue }, .silent)
  | .drain call => (s.drain call).map .ok
  | .drainWoken call => (s.drainWoken call).map .ok
  | .cancelDrain call => (s.cancelDrain call).map fun s => .ok (s, .silent)
  | .stop discardPending timeout => s.stop discardPending timeout
  | .gathered =>
    match s.stopping with
    | some (.gathering _) =>
      if s.allDone && !s.queue.workers.any WorkerState.isCancelled then some s.endStop else none
    | _ => none
  | .stopTimeout =>
    match s.stopping with
    | some (.gathering true) => some (.ok ({ s with stopping := some (.cancelling false) }, .silent))
    | _ => none
  | .stopCancelled =>
    match s.stopping with
    | some (.gathering _) => some (.ok ({ s with stopping := some (.cancelling true) }, .silent))
    | _ => none
  | .stopGathered =>
    match s.stopping with
    | some (.cancelling _) => if s.allDone then some s.endStop else none
    | _ => none

/-- The system after a step that raises nothing inside the queue. -/
def next (s : ParseSystem) (a : Action) : Option ParseSystem :=
  match s.step a with
  | some (.ok (s', _)) => some s'
  | _ => none

/-- A new queue, without calls. -/
def initial (queue : ParseQueue) : ParseSystem := ⟨queue, [], none⟩

end ParseSystem

/-! ## Steps -/

/-- A step of `stop`. -/
def Action.isStop : Action → Bool
  | .stop _ _ | .gathered | .stopTimeout | .stopCancelled | .stopGathered => true
  | _ => false

/-- The step ends a task or releases it from the queue. -/
def Label.settles : Label → ParseTask → Bool
  | .finished task, t => t = task
  | .removed tasks, t => decide (t ∈ tasks)
  | _, _ => false

/-- What a step does: the queue stays sound, and a `stop` that ends leaves it empty.  A step of
    anything else keeps the tasks it does not settle, and it wakes `drain` only if it leaves nothing
    or if it is a `remove_pending` that finds no task with a worker. -/
structure ParseSystem.Steps (s : ParseSystem) (a : Action) (s' : ParseSystem) (l : Label) : Prop where
  sound : s'.queue.Sound
  emptied : l = .stopped → s'.queue.Empty
  kept : a.isStop = false → ∀ t ∈ s.queue.held, t ∈ s'.queue.held ∨ l.settles t = true
  woken : a.isStop = false → ∀ call, s'.queue.queue.finished.Resolved call →
    s.queue.queue.finished.Resolved call ∨ s'.queue.held = [] ∨
      ∃ predicate, a = .removePending predicate ∧ s.queue.activeTasks = []

namespace ParseSystem

variable {s s' : ParseSystem} {a : Action} {l : Label} {queue : ParseQueue}

/-- A step that keeps the tasks and the waiters of `join`. -/
theorem Steps.of_kept (hsound : s'.queue.Sound) (hl : l ≠ .stopped)
    (hheld : ∀ t ∈ s.queue.held, t ∈ s'.queue.held)
    (hwaiters : ∀ call, s'.queue.queue.finished.Resolved call →
      s.queue.queue.finished.Resolved call) : s.Steps a s' l :=
  ⟨hsound, fun h => absurd h hl, fun _ t ht => .inl (hheld t ht),
    fun _ call hcall => .inl (hwaiters call hcall)⟩

/-- A step of a worker, which wakes `drain` only if it leaves nothing. -/
theorem Steps.of_rest (hsound : queue.Sound) (hl : l ≠ .stopped)
    (hheld : ∀ t ∈ s.queue.held, t ∈ queue.held ∨ l.settles t = true)
    (hrest : s.queue.WakesAtRest queue) : s.Steps a { s with queue } l := by
  refine ⟨hsound, fun h => absurd h hl, fun _ => hheld, fun _ call hcall => ?_⟩
  rcases hrest with hwaiters | hnone
  · obtain ⟨w, hw, hk⟩ := hcall
    exact .inl ⟨w, hwaiters ▸ hw, hk⟩
  · exact .inr (.inl hnone)

/-- A step of `stop`. -/
theorem Steps.of_stop (ha : a.isStop = true) (hsound : s'.queue.Sound)
    (hempty : l = .stopped → s'.queue.Empty) : s.Steps a s' l :=
  ⟨hsound, hempty, fun hstop => absurd (ha.symm.trans hstop) (by decide),
    fun hstop => absurd (ha.symm.trans hstop) (by decide)⟩

theorem Steps.of_grows (hsound : s'.queue.Sound) (hl : l ≠ .stopped) (hgrows : s.queue.Grows s'.queue) :
    s.Steps a s' l := by
  refine .of_kept hsound hl hgrows.1 fun call hcall => ?_
  obtain ⟨w, hw, hk⟩ := hcall
  exact ⟨w, hgrows.2 ▸ hw, hk⟩

/-- A step that exchanges the event of `join`. -/
theorem Steps.of_finished (h : s.queue.Sound) (hl : l ≠ .stopped) {e : Event Nat}
    (hvalue : e.value = s.queue.queue.finished.value)
    (hwaiters : ∀ call, e.Resolved call → s.queue.queue.finished.Resolved call) :
    s.Steps a (s.withFinished e) l :=
  .of_kept (h.withFinished hvalue) hl (fun _ ht => ht) hwaiters

theorem steps_enqueue (h : s.queue.Sound) {call : Nat} {messageId : Text} {rawSizeBytes : Int}
    (hs : s.enqueue call messageId rawSizeBytes = some (s', l)) : s.Steps a s' l := by
  unfold ParseSystem.enqueue at hs
  split at hs
  · cases hs
  · split at hs
    · cases hs
      exact .of_grows h Label.noConfusion .refl
    · cases hs
      exact .of_grows h Label.noConfusion .refl

theorem steps_enqueuePass (h : s.queue.Sound) {call : Nat} (hs : s.enqueuePass call = some (s', l)) :
    s.Steps a s' l := by
  unfold ParseSystem.enqueuePass at hs
  split at hs
  · rename_i task _ _
    have hsound := h.enqueuePass call task
    have hgrows := s.queue.grows_enqueuePass call task
    split at hs
    · rename_i result queue hpass
      rw [hpass] at hsound hgrows
      cases hs
      exact .of_grows hsound Label.noConfusion hgrows
    · rename_i queue hpass
      rw [hpass] at hsound hgrows
      cases hs
      exact .of_grows hsound Label.noConfusion hgrows
  · cases hs

theorem steps_enqueueWoken (h : s.queue.Sound) {call : Nat} (hs : s.enqueueWoken call = some (s', l)) :
    s.Steps a s' l := by
  unfold ParseSystem.enqueueWoken at hs
  split at hs
  · split at hs
    · dsimp only at hs
      split at hs
      · cases hs
        exact .of_grows (h.withCapacity _) Label.noConfusion .refl
      · cases hs
        exact .of_grows (h.withCapacity _) Label.noConfusion .refl
    · cases hs
  · cases hs

theorem steps_drain (h : s.queue.Sound) {call : Nat} (hs : s.drain call = some (s', l)) :
    s.Steps a s' l := by
  unfold ParseSystem.drain at hs
  dsimp only at hs
  split at hs
  · cases hs
  · split at hs
    · cases hs
      exact .of_finished h Label.noConfusion Event.value_wait fun _ hcall => hcall.of_wait
    · cases hs
      exact .of_grows h Label.noConfusion .refl

theorem steps_drainWoken (h : s.queue.Sound) {call : Nat} (hs : s.drainWoken call = some (s', l)) :
    s.Steps a s' l := by
  unfold ParseSystem.drainWoken at hs
  dsimp only at hs
  split at hs
  · split at hs
    · cases hs
      refine .of_finished h ?_ rfl fun _ hcall => hcall.of_leave
      split <;> exact Label.noConfusion
    · cases hs
  · cases hs

theorem steps_removePending (h : s.queue.Sound) (predicate : ParseTask → Bool) :
    ∃ s', s.step (.removePending predicate) =
        some (.ok (s', .removed (s.queue.pendingTasks.filter predicate))) ∧
      s.Steps (.removePending predicate) s' (.removed (s.queue.pendingTasks.filter predicate)) := by
  obtain ⟨q', hremove, hsound, hitems, hwaiters, hsame⟩ := h.removePending predicate
  have hactive : q'.activeTasks = s.queue.activeTasks := congrArg activeOf hsame.workers
  refine ⟨{ s with queue := q' }, ?_, hsound, Label.noConfusion, fun _ t ht => ?_, fun _ call hcall => ?_⟩
  · rw [ParseSystem.step, hremove]
    rfl
  · rcases List.mem_append.mp ht with ht | ht
    · by_cases hpicked : predicate t = true
      · exact .inr (decide_eq_true (List.mem_filter.mpr ⟨ht, hpicked⟩))
      · left
        have hitem : some t ∈ s.queue.queue.items.filter (ParseQueue.retains predicate) := by
          refine List.mem_filter.mpr ⟨List.reduceOption_mem_iff.mp ht, ?_⟩
          simpa [ParseQueue.retains] using hpicked
        rw [← hitems] at hitem
        exact List.mem_append_left _ (List.reduceOption_mem_iff.mpr hitem)
    · exact .inl (List.mem_append_right _ (hactive ▸ ht))
  · by_cases hbusy : s.queue.activeTasks = []
    · exact .inr (.inr ⟨predicate, rfl, hbusy⟩)
    · left
      have hlength : s.queue.activeTasks.length ≠ 0 := by simpa using hbusy
      have hsameWaiters : q'.queue.finished.waiters = s.queue.queue.finished.waiters := by
        rw [hwaiters, ParseQueue.wokenBy, AsyncQueue.woken, if_neg hlength]
        split <;> rfl
      obtain ⟨w, hw, hk⟩ := hcall
      exact ⟨w, hsameWaiters ▸ hw, hk⟩

/-- The end of `stop`, when every worker has ended. -/
theorem endStop_ok (h : s.queue.Sound) (hdone : s.allDone = true) :
    ∃ s', s.endStop = .ok (s', .stopped) ∧ s'.queue.Sound ∧ s'.queue.Empty := by
  obtain ⟨queue, hend, hsound, hempty⟩ := h.endStop hdone
  refine ⟨{ s with queue, stopping := none }, ?_, hsound, hempty⟩
  rw [ParseSystem.endStop, hend]
  rfl

theorem steps_stop (h : s.queue.Sound) {discardPending timeout : Bool}
    {r : Except QueueError (ParseSystem × Label)} (hr : s.stop discardPending timeout = some r) :
    ∃ s' l, r = .ok (s', l) ∧ s.Steps (.stop discardPending timeout) s' l := by
  unfold ParseSystem.stop at hr
  split at hr
  · cases hr
  · cases hr
    obtain ⟨waits, queue, hbegin, hsound, hempty⟩ := h.beginStop discardPending
    rw [hbegin, Except.ok_bind]
    cases waits with
    | true => exact ⟨_, _, rfl, .of_stop rfl hsound Label.noConfusion⟩
    | false => exact ⟨_, _, rfl, .of_stop rfl hsound fun _ => hempty rfl⟩

/-- The end of `stop` as a step. -/
theorem steps_endStop (h : s.queue.Sound) (ha : a.isStop = true) (hdone : s.allDone = true) :
    ∃ s' l, s.endStop = .ok (s', l) ∧ s.Steps a s' l := by
  obtain ⟨s', hend, hsound, hempty⟩ := endStop_ok h hdone
  exact ⟨s', .stopped, hend, .of_stop ha hsound fun _ => hempty⟩

/-- A step of a sound queue raises nothing inside the queue. -/
theorem steps_of_step (h : s.queue.Sound) {r : Except QueueError (ParseSystem × Label)}
    (hr : s.step a = some r) : ∃ s' l, r = .ok (s', l) ∧ s.Steps a s' l := by
  cases a with
  | start =>
    obtain ⟨s', hs', rfl⟩ := Option.map_eq_some_iff.mp hr
    unfold ParseSystem.start at hs'
    split at hs'
    · cases hs'
      exact ⟨_, _, rfl, .of_grows h.start.1 Label.noConfusion h.start.2⟩
    · cases hs'
  | tryEnqueue messageId rawSizeBytes =>
    rw [step, ParseQueue.tryEnqueue] at hr
    cases hvalid : ParseQueue.validateTask messageId rawSizeBytes with
    | error e =>
      rw [hvalid] at hr
      cases hr
      exact ⟨_, _, rfl, .of_grows h Label.noConfusion .refl⟩
    | ok task =>
      rw [hvalid] at hr
      cases hr
      exact ⟨_, _, rfl, .of_grows (h.tryEnqueueTask task) Label.noConfusion
        (s.queue.grows_tryEnqueueTask task)⟩
  | enqueue call messageId rawSizeBytes =>
    obtain ⟨⟨s', l⟩, hs', rfl⟩ := Option.map_eq_some_iff.mp hr
    exact ⟨s', l, rfl, steps_enqueue h hs'⟩
  | enqueuePass call =>
    obtain ⟨⟨s', l⟩, hs', rfl⟩ := Option.map_eq_some_iff.mp hr
    exact ⟨s', l, rfl, steps_enqueuePass h hs'⟩
  | enqueueWoken call =>
    obtain ⟨⟨s', l⟩, hs', rfl⟩ := Option.map_eq_some_iff.mp hr
    exact ⟨s', l, rfl, steps_enqueueWoken h hs'⟩
  | cancelEnqueue call =>
    obtain ⟨s', hs', rfl⟩ := Option.map_eq_some_iff.mp hr
    unfold ParseSystem.cancelEnqueue at hs'
    split at hs'
    · cases hs'
      exact ⟨_, _, rfl, .of_grows (h.withCapacity _) Label.noConfusion .refl⟩
    · cases hs'
  | removePending predicate =>
    obtain ⟨s', hs', hsteps⟩ := steps_removePending h predicate
    cases hs'.symm.trans hr
    exact ⟨s', _, rfl, hsteps⟩
  | takeTask worker =>
    obtain ⟨r', htake, rfl⟩ := Option.map_eq_some_iff.mp hr
    obtain ⟨queue, rfl, hsound, hheld, hrest⟩ := h.takeTask htake
    exact ⟨_, _, rfl, .of_rest hsound Label.noConfusion
      (fun t ht => .inl (hheld.mem_iff.mpr ht)) hrest⟩
  | finishTask worker outcome =>
    obtain ⟨r', hfinish, rfl⟩ := Option.map_eq_some_iff.mp hr
    obtain ⟨task, queue, rfl, hsound, hheld, hrest⟩ := h.finishTask hfinish
    refine ⟨_, _, rfl, .of_rest hsound Label.noConfusion (fun t ht => ?_) hrest⟩
    rcases List.mem_cons.mp (hheld.mem_iff.mp ht) with hmine | hother
    · exact .inr (decide_eq_true hmine)
    · exact .inl hother
  | cancelWorker worker =>
    obtain ⟨queue, hcancel, rfl⟩ := Option.map_eq_some_iff.mp hr
    obtain ⟨hsound, hheld, hrest⟩ := h.cancelWorker hcancel
    exact ⟨_, _, rfl, .of_rest hsound Label.noConfusion
      (fun t ht => .inl (hheld.mem_iff.mpr ht)) hrest⟩
  | drain call =>
    obtain ⟨⟨s', l⟩, hs', rfl⟩ := Option.map_eq_some_iff.mp hr
    exact ⟨s', l, rfl, steps_drain h hs'⟩
  | drainWoken call =>
    obtain ⟨⟨s', l⟩, hs', rfl⟩ := Option.map_eq_some_iff.mp hr
    exact ⟨s', l, rfl, steps_drainWoken h hs'⟩
  | cancelDrain call =>
    obtain ⟨s', hs', rfl⟩ := Option.map_eq_some_iff.mp hr
    unfold ParseSystem.cancelDrain at hs'
    dsimp only at hs'
    split at hs'
    · cases hs'
      exact ⟨_, _, rfl, .of_finished h Label.noConfusion rfl fun _ hcall => hcall.of_cancel⟩
    · cases hs'
  | stop discardPending timeout => exact steps_stop h hr
  | gathered =>
    rw [step] at hr
    split at hr
    · split at hr
      · rename_i hdone
        cases hr
        exact steps_endStop h rfl (Bool.and_eq_true_iff.mp hdone).1
      · cases hr
    · cases hr
  | stopTimeout =>
    rw [step] at hr
    split at hr
    · cases hr
      exact ⟨_, _, rfl, .of_stop rfl h Label.noConfusion⟩
    · cases hr
  | stopCancelled =>
    rw [step] at hr
    split at hr
    · cases hr
      exact ⟨_, _, rfl, .of_stop rfl h Label.noConfusion⟩
    · cases hr
  | stopGathered =>
    rw [step] at hr
    split at hr
    · split at hr
      · rename_i hdone
        cases hr
        exact steps_endStop h rfl hdone
      · cases hr
    · cases hr

/-! ## Runs -/

theorem next_eq_some (h : s.next a = some s') : ∃ l, s.step a = some (.ok (s', l)) := by
  unfold next at h
  split at h
  · rename_i l hstep
    cases h
    exact ⟨l, hstep⟩
  · cases h

theorem sound_run {actions : List Action} (h : s.queue.Sound)
    (hrun : Transition.run next s actions = some s') : s'.queue.Sound := by
  have hpreserve : ∀ s a s', s.queue.Sound → next s a = some s' → s'.queue.Sound := by
    intro s a s' hs hnext
    obtain ⟨l, hstep⟩ := next_eq_some hnext
    obtain ⟨_, _, heq, hsteps⟩ := steps_of_step hs hstep
    cases heq
    exact hsteps.sound
  exact Transition.run_invariant hpreserve h hrun

end ParseSystem

/-! ## The accounting -/

/-- The reservations are the tasks that are queued or active, and they stay within the budgets. -/
structure ParseQueue.Accounted (q : ParseQueue) : Prop where
  ids : ∀ id, id ∈ q.reservedMessageIds ↔ ∃ task ∈ q.pendingTasks ++ q.activeTasks, task.messageId = id
  distinct : ((q.pendingTasks ++ q.activeTasks).map ParseTask.messageId).Nodup
  idsDistinct : q.reservedMessageIds.Nodup
  active : ∀ id, id ∈ q.activeMessageIds ↔ ∃ task ∈ q.activeTasks, task.messageId = id
  messages : q.reservedMessages = q.reservedMessageIds.length
  bytes : q.reservedBytes = ((q.pendingTasks ++ q.activeTasks).map ParseTask.rawSizeBytes).sum
  messages_within : 0 ≤ q.reservedMessages ∧ q.reservedMessages ≤ q.maxMessages
  bytes_within : 0 ≤ q.reservedBytes ∧ q.reservedBytes ≤ q.maxBytes

theorem ParseQueue.Sound.accounted {q : ParseQueue} (h : q.Sound) : q.Accounted := by
  have hres := h.reserves
  refine ⟨?_, hres.distinct, hres.ids.nodup_iff.mpr hres.distinct, ?_, ?_, hres.bytes, ⟨?_, h.messages_le⟩,
    ⟨?_, h.bytes_le⟩⟩
  · intro id
    rw [hres.ids.mem_iff, List.mem_map]
    rfl
  · intro id
    rw [h.active.mem_iff, List.mem_map]
  · rw [hres.messages, hres.ids.length_eq, List.length_map]
  · rw [hres.messages]
    exact Int.natCast_nonneg _
  · rw [hres.bytes]
    exact Int.natCast_nonneg _

/-- In every state of every run of a queue the reservations are accounted for, no step raises inside
    the queue, `remove_pending` keeps the other items in their order, and a `stop` that ends leaves the
    queue empty and nothing reserved. -/
theorem parse_queue_accounting {workerCount maxMessages maxBytes : Int} {q : ParseQueue}
    (hnew : ParseQueue.new workerCount maxMessages maxBytes = .ok q) {actions : List Action}
    {s : ParseSystem} (hrun : Transition.run ParseSystem.next (.initial q) actions = some s) :
    s.queue.Accounted ∧
    (∀ a e, s.step a ≠ some (.error e)) ∧
    (∀ predicate, ∃ q', s.queue.removePending predicate =
        .ok ((s.queue.pendingTasks.filter predicate).length, q') ∧
      q'.queue.items = s.queue.queue.items.filter fun item => !item.any predicate) ∧
    ∀ a s', s.step a = some (.ok (s', .stopped)) → s'.queue.Empty := by
  have hsound := ParseSystem.sound_run (ParseQueue.sound_new hnew).1 hrun
  refine ⟨hsound.accounted, ?_, ?_, ?_⟩
  · intro a e hstep
    obtain ⟨s', l, heq, -⟩ := ParseSystem.steps_of_step hsound hstep
    cases heq
  · intro predicate
    obtain ⟨q', hremove, -, hitems, -⟩ := hsound.removePending predicate
    exact ⟨q', hremove, hitems⟩
  · intro a s' hstep
    obtain ⟨s'', l, heq, hsteps⟩ := ParseSystem.steps_of_step hsound hstep
    cases heq
    exact hsteps.emptied rfl

/-- A `stop` that runs into its timeout while a task is active and another one was queued. -/
theorem parse_queue_accounting_timeout :
    ∃ q s s', ParseQueue.new 1 2 10 = .ok q ∧
      Transition.run ParseSystem.next (.initial q)
        [.start, .tryEnqueue "msg_active".toList 6, .tryEnqueue "msg_pending".toList 4, .takeTask 0,
          .stop true true, .stopTimeout, .finishTask 0 .cancelled] = some s ∧
      s.step .stopGathered = some (.ok (s', .stopped)) ∧ s'.queue.Empty := by
  refine ⟨_, _, _, rfl, rfl, rfl, ?_⟩
  have haccounting := @parse_queue_accounting 1 2 10 _ rfl
    [.start, .tryEnqueue "msg_active".toList 6, .tryEnqueue "msg_pending".toList 4, .takeTask 0,
      .stop true true, .stopTimeout, .finishTask 0 .cancelled] _ rfl
  exact haccounting.2.2.2 .stopGathered _ rfl

end RapidInbox.Parser

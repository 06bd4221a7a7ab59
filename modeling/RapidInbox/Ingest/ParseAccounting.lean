import Mathlib.Data.List.Perm.Basic
import Mathlib.Data.List.Nodup
import Mathlib.Data.List.ReduceOption
import Mathlib.Algebra.Order.BigOperators.Group.List
import Mathlib.Algebra.Order.Group.Nat
import RapidInbox.Ingest.ParseQueue
import RapidInbox.Lib.Result

/-!
# The reservations of the parse queue

The reservations are those of a list of tasks: a task is reserved once, in the queue or with a worker.
Every operation moves tasks between the queue and the workers, or takes one of them out and releases
it.
-/

namespace RapidInbox.Parser

open EventLoop

/-! ## Workers -/

/-- The tasks the workers are busy with. -/
def activeOf (workers : List WorkerState) : List ParseTask := workers.filterMap WorkerState.task?

/-- A worker changes its state: its task goes out, and its new one comes in. -/
theorem activeOf_set {workers : List WorkerState} {i : Nat} {w : WorkerState}
    (h : workers[i]? = some w) (w' : WorkerState) :
    (w'.task?.toList ++ activeOf workers).Perm (w.task?.toList ++ activeOf (workers.set i w')) := by
  unfold activeOf
  induction workers generalizing i with
  | nil => cases h
  | cons v workers ih =>
    have hcons (v : WorkerState) (vs : List WorkerState) :
        (v :: vs).filterMap WorkerState.task? = v.task?.toList ++ vs.filterMap WorkerState.task? := by
      cases hv : v.task? <;> simp [hv]
    cases i with
    | zero =>
      cases h
      rw [List.set_cons_zero, hcons, hcons, ← List.append_assoc, ← List.append_assoc]
      exact List.perm_append_comm.append_right _
    | succ i =>
      rw [List.set_cons_succ, hcons, hcons, ← List.append_assoc, ← List.append_assoc]
      refine (List.perm_append_comm.append_right _).trans ?_
      refine List.Perm.trans ?_ (List.perm_append_comm.append_right _)
      rw [List.append_assoc, List.append_assoc]
      exact (ih h).append_left _

theorem activeOf_done {workers : List WorkerState} (h : workers.all WorkerState.isDone = true) :
    activeOf workers = [] := by
  unfold activeOf
  rw [List.filterMap_eq_nil_iff]
  intro w hw
  have hdone := List.all_eq_true.mp h w hw
  cases w with
  | done cancelled => rfl
  | idle => cases hdone
  | busy task => cases hdone

theorem activeOf_replicate (n : Nat) : activeOf (List.replicate n .idle) = [] := by
  unfold activeOf
  rw [List.filterMap_eq_nil_iff]
  intro w hw
  rw [List.eq_of_mem_replicate hw]
  rfl

namespace ParseQueue

variable {q q' : ParseQueue} {task : ParseTask} {tasks others : List ParseTask}

/-- The tasks in the queue. -/
def pendingTasks (q : ParseQueue) : List ParseTask := q.queue.items.reduceOption

/-- The tasks with the workers. -/
def activeTasks (q : ParseQueue) : List ParseTask := activeOf q.workers

/-- The tasks that are queued or active. -/
def held (q : ParseQueue) : List ParseTask := q.pendingTasks ++ q.activeTasks

/-! ## Reservations -/

/-- The reservations are those of the tasks. -/
structure Reserves (q : ParseQueue) (tasks : List ParseTask) : Prop where
  ids : q.reservedMessageIds.Perm (tasks.map ParseTask.messageId)
  distinct : (tasks.map ParseTask.messageId).Nodup
  messages : q.reservedMessages = tasks.length
  bytes : q.reservedBytes = (tasks.map ParseTask.rawSizeBytes).sum

theorem Reserves.perm {tasks' : List ParseTask} (h : q.Reserves tasks) (hperm : tasks.Perm tasks') :
    q.Reserves tasks' :=
  ⟨h.ids.trans (hperm.map _), (hperm.map _).nodup_iff.mp h.distinct, by rw [h.messages, hperm.length_eq],
    by rw [h.bytes, (hperm.map _).sum_eq]⟩

/-- Taking the id of a task out of the ids of distinct tasks. -/
theorem perm_filter_ne {ids : List Text} (h : ids.Perm ((task :: tasks).map ParseTask.messageId))
    (hnew : task.messageId ∉ tasks.map ParseTask.messageId) :
    (ids.filter fun id => id ≠ task.messageId).Perm (tasks.map ParseTask.messageId) := by
  have hfilter := h.filter fun id => id ≠ task.messageId
  rw [List.map_cons, List.filter_cons_of_neg (by simp)] at hfilter
  refine hfilter.trans (List.Perm.of_eq (List.filter_eq_self.mpr ?_))
  intro id hid
  have hne : id ≠ task.messageId := fun heq => hnew (heq ▸ hid)
  simpa using hne

/-- The reservations of the queue after a successful `_release`. -/
def released (q : ParseQueue) (task : ParseTask) : ParseQueue :=
  { q with
    reservedMessageIds := q.reservedMessageIds.filter fun id => id ≠ task.messageId
    reservedMessages := q.reservedMessages - 1
    reservedBytes := q.reservedBytes - task.rawSizeBytes
    capacityChanged := q.capacityChanged.set }

@[simp] theorem released_queue : (q.released task).queue = q.queue := rfl

@[simp] theorem released_workers : (q.released task).workers = q.workers := rfl

/-- A reserved task can be released. -/
theorem Reserves.release (h : q.Reserves (task :: tasks)) :
    q.release task = .ok (q.released task) ∧ (q.released task).Reserves tasks := by
  have hmem : task.messageId ∈ q.reservedMessageIds := by
    rw [h.ids.mem_iff]
    exact List.mem_cons_self
  have hmessages := h.messages
  have hbytes := h.bytes
  rw [List.length_cons] at hmessages
  rw [List.map_cons, List.sum_cons] at hbytes
  constructor
  · unfold ParseQueue.release
    rw [if_neg (not_not.mpr hmem)]
    dsimp only
    rw [if_neg (by omega)]
    rfl
  · have hdistinct := h.distinct
    rw [List.map_cons, List.nodup_cons] at hdistinct
    refine ⟨?_, hdistinct.2, ?_, ?_⟩
    · exact perm_filter_ne h.ids hdistinct.1
    · change q.reservedMessages - 1 = _
      omega
    · change q.reservedBytes - task.rawSizeBytes = _
      omega

/-- A task that is not reserved can be reserved. -/
theorem Reserves.reserve (h : q.Reserves tasks) (hnew : task.messageId ∉ q.reservedMessageIds)
    (hids : q'.reservedMessageIds = q.reservedMessageIds ++ [task.messageId])
    (hmessages : q'.reservedMessages = q.reservedMessages + 1)
    (hbytes : q'.reservedBytes = q.reservedBytes + task.rawSizeBytes) : q'.Reserves (task :: tasks) := by
  refine ⟨?_, ?_, ?_, ?_⟩
  · rw [hids, List.map_cons]
    exact List.perm_append_comm.trans (h.ids.cons _)
  · rw [List.map_cons, List.nodup_cons, ← h.ids.mem_iff]
    exact ⟨hnew, h.distinct⟩
  · rw [hmessages, h.messages, List.length_cons]
    rfl
  · rw [hbytes, h.bytes, List.map_cons, List.sum_cons, Int.natCast_add]
    exact Int.add_comm _ _

/-- What an operation on the contents of the queue leaves alone. -/
structure SameWorkers (q q' : ParseQueue) : Prop where
  workers : q'.workers = q.workers
  active : q'.activeMessageIds = q.activeMessageIds
  workerCount : q'.workerCount = q.workerCount
  maxMessages : q'.maxMessages = q.maxMessages
  maxBytes : q'.maxBytes = q.maxBytes

theorem SameWorkers.refl : q.SameWorkers q := ⟨rfl, rfl, rfl, rfl, rfl⟩

/-- `task_done` for an item that was taken. -/
theorem taskDone_ok {n : Nat} (hq : q.queue.Consistent) (h : q.queue.unfinishedTasks = n + 1) :
    ∃ queue, q.taskDone = .ok { q with queue } ∧ queue.items = q.queue.items ∧
      queue.unfinishedTasks = n ∧ queue.Consistent ∧
      queue.finished.waiters = AsyncQueue.woken n q.queue.finished.waiters := by
  obtain ⟨queue, htask, hrest⟩ := AsyncQueue.taskDone_eq hq h
  refine ⟨queue, ?_, hrest⟩
  unfold taskDone
  rw [htask]

/-! ## Emptying the queue -/

/-- An item that `remove_pending` retains. -/
def retains (predicate : ParseTask → Bool) (item : Option ParseTask) : Bool := !item.any predicate

theorem reduceOption_cons_eq (item : Option ParseTask) (items : List (Option ParseTask)) :
    (item :: items).reduceOption = item.toList ++ items.reduceOption := by
  cases item <;> rfl

theorem filter_eq_some {predicate : ParseTask → Bool} {item : Option ParseTask}
    (h : item.filter predicate = some task) : item = some task ∧ predicate task = true := by
  rwa [Option.filter_eq_some_iff] at h

theorem retains_of_filter {predicate : ParseTask → Bool} {item : Option ParseTask}
    (h : item.filter predicate = none) : retains predicate item = true := by
  cases item with
  | none => rfl
  | some task => simpa [retains, Option.filter] using h

/-- The waiters of `join` after the loop has taken the items and called `task_done` for each. -/
def wokenBy (items : List (Option ParseTask)) (n : Nat) (waiters : List (Waiter Nat)) :
    List (Waiter Nat) :=
  if items = [] then waiters else AsyncQueue.woken n waiters

theorem wokenBy_cons (item : Option ParseTask) (items : List (Option ParseTask)) (n : Nat)
    (waiters : List (Waiter Nat)) :
    wokenBy items n (AsyncQueue.woken (items.length + n) waiters) = wokenBy (item :: items) n waiters := by
  unfold wokenBy AsyncQueue.woken
  cases items with
  | nil => simp
  | cons item' items => simp

/-- The loop of `remove_pending`: the tasks that the predicate picks are released, the other items
    keep their order.  `others` are the tasks with the workers, and `n` how many tasks are unfinished
    beside the items. -/
theorem removeLoop_ok (predicate : ParseTask → Bool) (cleared : Nat)
    {items retained : List (Option ParseTask)} {n : Nat} (hitems : q.queue.items = items)
    (hq : q.queue.Consistent)
    (hcount : q.queue.unfinishedTasks = items.length + n)
    (hres : q.Reserves (retained.reduceOption ++ (items.reduceOption ++ others))) :
    ∃ q', removeLoop predicate items cleared retained q =
        .ok (cleared + (items.reduceOption.filter predicate).length, q') ∧
      q'.queue.items = retained ++ items.filter (retains predicate) ∧
      q'.queue.unfinishedTasks = (retained ++ items.filter (retains predicate)).length + n ∧
      q'.queue.Consistent ∧
      q'.queue.finished.waiters = wokenBy items n q.queue.finished.waiters ∧
      q'.Reserves ((retained ++ items.filter (retains predicate)).reduceOption ++ others) ∧
      q.SameWorkers q' := by
  induction items generalizing q cleared retained with
  | nil =>
    refine ⟨_, rfl, ?_, ?_, hq.putAll _, AsyncQueue.waiters_putAll _, ?_, ⟨rfl, rfl, rfl, rfl, rfl⟩⟩
    · rw [AsyncQueue.items_putAll, hitems, List.filter_nil, List.append_nil, List.nil_append]
    · rw [AsyncQueue.unfinishedTasks_putAll, hcount, List.filter_nil, List.append_nil, List.length_nil]
      omega
    · rw [List.filter_nil, List.append_nil]
      exact ⟨hres.ids, hres.distinct, hres.messages, hres.bytes⟩
  | cons item items ih =>
    have hcount' : (q.popped items).queue.unfinishedTasks = items.length + n + 1 := by
      refine hcount.trans ?_
      rw [List.length_cons]
      omega
    rw [removeLoop]
    cases hitem : item.filter predicate with
    | some task =>
      obtain ⟨rfl, hpicked⟩ := filter_eq_some hitem
      have hpop : (q.popped items).Reserves (task :: (retained.reduceOption ++
          (items.reduceOption ++ others))) := by
        refine Reserves.perm ⟨hres.ids, hres.distinct, hres.messages, hres.bytes⟩ ?_
        rw [reduceOption_cons_eq]
        exact List.perm_middle
      obtain ⟨hrelease, hreleased⟩ := hpop.release
      obtain ⟨queue, hdone, hqueue, hunfinished, hconsistent, hwaiters⟩ :=
        taskDone_ok (q := (q.popped items).released task) hq hcount'
      obtain ⟨q', hloop, hrest⟩ := ih (q := { (q.popped items).released task with queue })
        (cleared + 1) hqueue hconsistent hunfinished
        ⟨hreleased.ids, hreleased.distinct, hreleased.messages, hreleased.bytes⟩
      refine ⟨q', ?_, ?_⟩
      · dsimp only
        rw [hrelease, Except.ok_bind, hdone, Except.ok_bind, hloop, reduceOption_cons_eq]
        rw [Option.toList_some, List.singleton_append, List.filter_cons_of_pos hpicked,
          List.length_cons, Nat.add_assoc, Nat.add_comm 1]
      · have hfilter : (some task :: items).filter (retains predicate) =
            items.filter (retains predicate) :=
          List.filter_cons_of_neg (by simp [retains, hpicked])
        rw [hfilter]
        obtain ⟨hitems', hcount'', hcons', hwaiters', hres', hsame⟩ := hrest
        refine ⟨hitems', hcount'', hcons', ?_, hres', ⟨hsame.1, hsame.2, hsame.3, hsame.4, hsame.5⟩⟩
        rw [hwaiters', ← wokenBy_cons (some task)]
        exact congrArg _ hwaiters
    | none =>
      obtain ⟨queue, hdone, hqueue, hunfinished, hconsistent, hwaiters⟩ :=
        taskDone_ok (q := q.popped items) hq hcount'
      have hres' : ({ q.popped items with queue } : ParseQueue).Reserves
          ((retained ++ [item]).reduceOption ++ (items.reduceOption ++ others)) := by
        refine Reserves.perm ⟨hres.ids, hres.distinct, hres.messages, hres.bytes⟩ ?_
        rw [reduceOption_cons_eq, List.reduceOption_append, reduceOption_cons_eq]
        simp
      obtain ⟨q', hloop, hrest⟩ := ih cleared hqueue hconsistent hunfinished hres'
      have hretains := retains_of_filter hitem
      refine ⟨q', ?_, ?_⟩
      · dsimp only
        have hskip : (item :: items).reduceOption.filter predicate =
            items.reduceOption.filter predicate := by
          cases item with
          | none => rfl
          | some task =>
            have hnot : ¬predicate task = true := by simpa [Option.filter] using hitem
            rw [reduceOption_cons_eq, Option.toList_some, List.singleton_append,
              List.filter_cons_of_neg hnot]
        rw [hdone, Except.ok_bind, hloop, hskip]
      · rw [List.filter_cons_of_pos hretains]
        obtain ⟨hitems', hcount'', hcons', hwaiters', hres'', hsame⟩ := hrest
        rw [List.append_assoc, List.singleton_append] at hitems' hcount'' hres''
        refine ⟨hitems', hcount'', hcons', ?_, hres'', ⟨hsame.1, hsame.2, hsame.3, hsame.4, hsame.5⟩⟩
        rw [hwaiters', ← wokenBy_cons item]
        exact congrArg _ hwaiters

/-- `_discard_queue_contents`: every task in the queue is released. -/
theorem discardLoop_ok {items : List (Option ParseTask)} {n : Nat} (hitems : q.queue.items = items)
    (hq : q.queue.Consistent) (hcount : q.queue.unfinishedTasks = items.length + n)
    (hres : q.Reserves (items.reduceOption ++ others)) :
    ∃ q', discardLoop items q = .ok q' ∧ q'.queue.items = [] ∧ q'.queue.unfinishedTasks = n ∧
      q'.queue.Consistent ∧ q'.Reserves others ∧ q.SameWorkers q' := by
  induction items generalizing q with
  | nil =>
    rw [List.length_nil, Nat.zero_add] at hcount
    exact ⟨q, rfl, hitems, hcount, hq, hres, .refl⟩
  | cons item items ih =>
    have hcount' : (q.popped items).queue.unfinishedTasks = items.length + n + 1 := by
      refine hcount.trans ?_
      rw [List.length_cons]
      omega
    cases item with
    | none =>
      obtain ⟨queue, hdone, hqueue, hunfinished, hconsistent, -⟩ :=
        taskDone_ok (q := q.popped items) hq hcount'
      obtain ⟨q', hloop, hitems', hn, hcons, hres', hsame⟩ := ih
        (q := { q.popped items with queue }) hqueue hconsistent hunfinished
        ⟨hres.ids, hres.distinct, hres.messages, hres.bytes⟩
      refine ⟨q', ?_, hitems', hn, hcons, hres', ⟨hsame.1, hsame.2, hsame.3, hsame.4, hsame.5⟩⟩
      rw [discardLoop, hdone, Except.ok_bind, hloop]
    | some task =>
      have hpop : (q.popped items).Reserves (task :: (items.reduceOption ++ others)) :=
        ⟨hres.ids, hres.distinct, hres.messages, hres.bytes⟩
      obtain ⟨hrelease, hreleased⟩ := hpop.release
      obtain ⟨queue, hdone, hqueue, hunfinished, hconsistent, -⟩ :=
        taskDone_ok (q := (q.popped items).released task) hq hcount'
      obtain ⟨q', hloop, hitems', hn, hcons, hres', hsame⟩ := ih
        (q := { (q.popped items).released task with queue }) hqueue hconsistent hunfinished
        ⟨hreleased.ids, hreleased.distinct, hreleased.messages, hreleased.bytes⟩
      refine ⟨q', ?_, hitems', hn, hcons, hres', ⟨hsame.1, hsame.2, hsame.3, hsame.4, hsame.5⟩⟩
      rw [discardLoop, hrelease, Except.ok_bind, hdone, Except.ok_bind, hloop]

/-! ## The operations -/

/-- What holds between two steps. -/
structure Sound (q : ParseQueue) : Prop where
  reserves : q.Reserves q.held
  active : q.activeMessageIds.Perm (q.activeTasks.map ParseTask.messageId)
  unfinished : q.queue.unfinishedTasks = q.queue.items.length + q.activeTasks.length
  consistent : q.queue.Consistent
  messages_le : q.reservedMessages ≤ q.maxMessages
  bytes_le : q.reservedBytes ≤ q.maxBytes

/-- Fewer reservations stay within the budgets. -/
theorem Reserves.within (h : q.Reserves tasks) (h' : q'.Reserves others) (hsub : others.Sublist tasks) :
    q'.reservedMessages ≤ q.reservedMessages ∧ q'.reservedBytes ≤ q.reservedBytes := by
  have hlength := hsub.length_le
  have hsum : (others.map ParseTask.rawSizeBytes).sum ≤ (tasks.map ParseTask.rawSizeBytes).sum :=
    (hsub.map _).sum_le_sum (fun _ _ => Nat.zero_le _)
  rw [h.messages, h'.messages, h.bytes, h'.bytes]
  omega

theorem sound_new {workerCount maxMessages maxBytes : Int}
    (h : ParseQueue.new workerCount maxMessages maxBytes = .ok q) : q.Sound ∧ q.workers = [] := by
  unfold ParseQueue.new at h
  split at h
  · cases h
  · split at h
    · cases h
    · rename_i hmessages hbytes
      cases h
      refine ⟨⟨⟨.refl _, List.nodup_nil, rfl, rfl⟩, .refl _, rfl, AsyncQueue.consistent_empty, ?_, ?_⟩, rfl⟩
      · change (0 : Int) ≤ maxMessages
        omega
      · change (0 : Int) ≤ maxBytes
        omega

/-- Who waits for capacity is of no account. -/
theorem Sound.withCapacity (h : q.Sound) (e : Event Nat) : ({ q with capacityChanged := e } : ParseQueue).Sound :=
  ⟨⟨h.reserves.ids, h.reserves.distinct, h.reserves.messages, h.reserves.bytes⟩, h.active, h.unfinished,
    h.consistent, h.messages_le, h.bytes_le⟩

/-- Neither is who waits in `join`. -/
theorem Sound.withFinished (h : q.Sound) {e : Event Nat} (he : e.value = q.queue.finished.value) :
    ({ q with queue := { q.queue with finished := e } } : ParseQueue).Sound := by
  refine ⟨⟨h.reserves.ids, h.reserves.distinct, h.reserves.messages, h.reserves.bytes⟩, h.active,
    h.unfinished, ?_, h.messages_le, h.bytes_le⟩
  unfold AsyncQueue.Consistent
  dsimp only
  rw [he]
  exact h.consistent

theorem held_putNowait (q : ParseQueue) (task : ParseTask) :
    (({ q with queue := q.queue.putNowait (some task) } : ParseQueue).held).Perm (task :: q.held) := by
  change (List.reduceOption (q.queue.items ++ [some task]) ++ q.activeTasks).Perm _
  rw [List.reduceOption_append, List.append_assoc]
  exact List.perm_middle

theorem Sound.tryEnqueueTask (h : q.Sound) (task : ParseTask) : (q.tryEnqueueTask task).2.Sound := by
  unfold ParseQueue.tryEnqueueTask
  split
  · exact h
  · split
    · exact h
    · rename_i hnew
      by_cases hcapacity : q.hasCapacity task = true
      · rw [hcapacity, if_neg (by simp)]
        unfold hasCapacity at hcapacity
        rw [Bool.and_eq_true, decide_eq_true_iff, decide_eq_true_iff] at hcapacity
        refine ⟨?_, h.active, ?_, .putNowait _, ?_, hcapacity.2⟩
        · exact (h.reserves.reserve hnew rfl rfl rfl).perm (q.held_putNowait task).symm
        · change q.queue.unfinishedTasks + 1 = (q.queue.items ++ [some task]).length + q.activeTasks.length
          rw [h.unfinished, List.length_append, List.length_singleton]
          omega
        · change q.reservedMessages + 1 ≤ q.maxMessages
          omega
      · rw [Bool.eq_false_iff.mpr hcapacity, if_pos (by rfl)]
        exact h

theorem Sound.enqueuePass (h : q.Sound) (call : Nat) (task : ParseTask) :
    (q.enqueuePass call task).2.Sound := by
  unfold ParseQueue.enqueuePass
  split
  · exact h
  · have htry := h.tryEnqueueTask task
    cases hresult : q.tryEnqueueTask task with
    | mk result q' =>
      rw [hresult] at htry
      cases result with
      | true => exact htry
      | false =>
        dsimp only
        split
        · exact htry.withCapacity _
        · split
          · exact htry.withCapacity _
          · exact htry.withCapacity _

/-- The tasks stay, and `drain` is not woken. -/
def Grows (q q' : ParseQueue) : Prop :=
  (∀ t ∈ q.held, t ∈ q'.held) ∧ q'.queue.finished.waiters = q.queue.finished.waiters

theorem Grows.refl : q.Grows q := ⟨fun _ ht => ht, rfl⟩

theorem grows_tryEnqueueTask (q : ParseQueue) (task : ParseTask) : q.Grows (q.tryEnqueueTask task).2 := by
  unfold ParseQueue.tryEnqueueTask
  split
  · exact .refl
  · split
    · exact .refl
    · split
      · exact .refl
      · refine ⟨fun t ht => ?_, rfl⟩
        exact (q.held_putNowait task).mem_iff.mpr (List.mem_cons_of_mem _ ht)

theorem grows_enqueuePass (q : ParseQueue) (call : Nat) (task : ParseTask) :
    q.Grows (q.enqueuePass call task).2 := by
  unfold ParseQueue.enqueuePass
  split
  · exact .refl
  · have htry := q.grows_tryEnqueueTask task
    cases hresult : q.tryEnqueueTask task with
    | mk result q' =>
      rw [hresult] at htry
      cases result with
      | true => exact htry
      | false =>
        dsimp only
        split
        · exact htry
        · split
          · exact htry
          · exact htry

/-- `remove_pending` releases the tasks that the predicate picks and keeps the other items, stop
    sentinels among them, in their order. -/
theorem Sound.removePending (h : q.Sound) (predicate : ParseTask → Bool) :
    ∃ q', q.removePending predicate = .ok ((q.pendingTasks.filter predicate).length, q') ∧ q'.Sound ∧
      q'.queue.items = q.queue.items.filter (retains predicate) ∧
      q'.queue.finished.waiters =
        wokenBy q.queue.items q.activeTasks.length q.queue.finished.waiters ∧
      q.SameWorkers q' := by
  have hreserves : q.Reserves (([] : List (Option ParseTask)).reduceOption ++
      (q.queue.items.reduceOption ++ q.activeTasks)) := h.reserves
  obtain ⟨q', hloop, hitems, hcount, hcons, hwaiters, hres, hsame⟩ :=
    removeLoop_ok predicate 0 rfl h.consistent h.unfinished hreserves
  have hactive : q'.activeTasks = q.activeTasks := congrArg activeOf hsame.workers
  have hheld : q'.held = (q.queue.items.filter (retains predicate)).reduceOption ++ q.activeTasks := by
    rw [held, pendingTasks, hitems, hactive, List.nil_append]
  have hwithin := h.reserves.within hres ((((List.filter_sublist).filterMap id)).append_right _)
  rw [Nat.zero_add] at hloop
  refine ⟨q', hloop, ⟨?_, ?_, ?_, hcons, ?_, ?_⟩, hitems, hwaiters, hsame⟩
  · rw [hheld]
    exact hres
  · rw [hsame.active, hactive]
    exact h.active
  · rw [hcount, hitems, hactive]
  · rw [hsame.maxMessages]
    exact Int.le_trans hwithin.1 h.messages_le
  · rw [hsame.maxBytes]
    exact Int.le_trans hwithin.2 h.bytes_le

/-- `join` may be woken by an operation that leaves nothing unfinished. -/
def WakesAtRest (q q' : ParseQueue) : Prop :=
  q'.queue.finished.waiters = q.queue.finished.waiters ∨ q'.held = []

theorem wakesAtRest_of_woken {n : Nat}
    (hwaiters : q'.queue.finished.waiters = AsyncQueue.woken n q.queue.finished.waiters)
    (hn : n = q'.queue.items.length + q'.activeTasks.length) : q.WakesAtRest q' := by
  by_cases hzero : n = 0
  · right
    have hitems : q'.queue.items = [] := List.eq_nil_of_length_eq_zero (by omega)
    have hactive : q'.activeTasks = [] := List.eq_nil_of_length_eq_zero (by omega)
    rw [held, pendingTasks, hitems, hactive]
    rfl
  · left
    rw [hwaiters, AsyncQueue.woken, if_neg hzero]

/-- A worker takes an item: the tasks stay reserved. -/
theorem Sound.takeTask (h : q.Sound) {worker : Nat} {r : Except QueueError ParseQueue}
    (hr : q.takeTask worker = some r) :
    ∃ q', r = .ok q' ∧ q'.Sound ∧ q'.held.Perm q.held ∧ q.WakesAtRest q' := by
  unfold ParseQueue.takeTask at hr
  split at hr
  · rename_i items hworker hitems
    cases hr
    have hcount : (q.popped items).queue.unfinishedTasks =
        items.length + q.activeTasks.length + 1 := by
      refine h.unfinished.trans ?_
      rw [hitems, List.length_cons]
      omega
    obtain ⟨queue, hdone, hqueue, hunfinished, hconsistent, hwaiters⟩ :=
      taskDone_ok (q := q.popped items) h.consistent hcount
    have hactive : (activeOf (q.workers.set worker (.done false))).Perm q.activeTasks :=
      (activeOf_set hworker (.done false)).symm
    have hheld : (List.reduceOption queue.items ++
        activeOf (q.workers.set worker (.done false))).Perm q.held := by
      rw [hqueue, held, pendingTasks, hitems, List.reduceOption_cons_of_none]
      exact hactive.append_left _
    have hn : items.length + q.activeTasks.length =
        queue.items.length + (activeOf (q.workers.set worker (.done false))).length := by
      rw [hqueue, hactive.length_eq]
      rfl
    refine ⟨{ q with queue, workers := q.workers.set worker (.done false) }, ?_,
      ⟨?_, ?_, ?_, hconsistent, h.messages_le, h.bytes_le⟩, hheld, wakesAtRest_of_woken hwaiters hn⟩
    · rw [hdone]
      rfl
    · have hres := h.reserves.perm hheld.symm
      exact ⟨hres.ids, hres.distinct, hres.messages, hres.bytes⟩
    · exact h.active.trans (hactive.symm.map _)
    · exact hunfinished.trans hn
  · rename_i task items hworker hitems
    cases hr
    have hactive : (task :: q.activeTasks).Perm (activeOf (q.workers.set worker (.busy task))) :=
      activeOf_set hworker (.busy task)
    have hheld : (List.reduceOption items ++ activeOf (q.workers.set worker (.busy task))).Perm q.held := by
      rw [held, pendingTasks, hitems, List.reduceOption_cons_of_some, List.cons_append]
      exact (hactive.symm.append_left _).trans List.perm_middle
    refine ⟨_, rfl, ⟨?_, ?_, ?_, h.consistent, h.messages_le, h.bytes_le⟩, hheld, .inl rfl⟩
    · have hres := h.reserves.perm hheld.symm
      exact ⟨hres.ids, hres.distinct, hres.messages, hres.bytes⟩
    · have hids := (h.active.append_right [task.messageId]).trans List.perm_append_comm
      exact hids.trans (hactive.map ParseTask.messageId)
    · refine h.unfinished.trans ?_
      change _ = items.length + (activeOf (q.workers.set worker (.busy task))).length
      rw [hitems, List.length_cons, ← hactive.length_eq, List.length_cons]
      omega
  · cases hr

/-- A worker ends its task, whatever `self._worker` did: the task is released. -/
theorem Sound.finishTask (h : q.Sound) {worker : Nat} {outcome : WorkerOutcome}
    {r : Except QueueError (ParseTask × ParseQueue)} (hr : q.finishTask worker outcome = some r) :
    ∃ task q', r = .ok (task, q') ∧ q'.Sound ∧ q.held.Perm (task :: q'.held) ∧ q.WakesAtRest q' := by
  unfold ParseQueue.finishTask at hr
  split at hr
  · rename_i task hworker
    cases hr
    set state : WorkerState := if outcome = .cancelled then .done true else .idle with hstate
    have hnone : state.task? = none := by
      rw [hstate]
      split <;> rfl
    have hactive : q.activeTasks.Perm (task :: activeOf (q.workers.set worker state)) := by
      have hset := activeOf_set hworker state
      rw [hnone] at hset
      exact hset
    have hheld : q.held.Perm (task :: (q.pendingTasks ++ activeOf (q.workers.set worker state))) :=
      (hactive.append_left _).trans List.perm_middle
    set q₁ : ParseQueue :=
      { q with activeMessageIds := q.activeMessageIds.filter fun id => id ≠ task.messageId } with hq₁
    have hres : q₁.Reserves (task :: (q.pendingTasks ++ activeOf (q.workers.set worker state))) := by
      have hres := h.reserves.perm hheld
      exact ⟨hres.ids, hres.distinct, hres.messages, hres.bytes⟩
    obtain ⟨hrelease, hreleased⟩ := hres.release
    have hcount : (q₁.released task).queue.unfinishedTasks =
        q.queue.items.length + (activeOf (q.workers.set worker state)).length + 1 := by
      refine h.unfinished.trans ?_
      rw [hactive.length_eq, List.length_cons]
      omega
    obtain ⟨queue, hdone, hqueue, hunfinished, hconsistent, hwaiters⟩ :=
      taskDone_ok (q := q₁.released task) h.consistent hcount
    have hwithin := (h.reserves.perm hheld).within hreleased (List.sublist_cons_self _ _)
    have hids := perm_filter_ne (h.active.trans (hactive.map _)) (by
      have hdistinct := (h.reserves.perm hheld).distinct
      rw [List.map_cons, List.nodup_cons, List.map_append, List.mem_append, not_or] at hdistinct
      exact hdistinct.1.2)
    have hn : q.queue.items.length + (activeOf (q.workers.set worker state)).length =
        queue.items.length + (activeOf (q.workers.set worker state)).length := by
      rw [hqueue]
      rfl
    refine ⟨task, { q₁.released task with queue, workers := q.workers.set worker state }, ?_,
      ⟨?_, hids, hunfinished.trans hn, hconsistent, ?_, ?_⟩, ?_, wakesAtRest_of_woken hwaiters hn⟩
    · dsimp only
      rw [hrelease, Except.ok_bind, hdone]
      rfl
    · change Reserves _ (queue.items.reduceOption ++ activeOf (q.workers.set worker state))
      rw [hqueue]
      exact ⟨hreleased.ids, hreleased.distinct, hreleased.messages, hreleased.bytes⟩
    · exact Int.le_trans hwithin.1 h.messages_le
    · exact Int.le_trans hwithin.2 h.bytes_le
    · change q.held.Perm (task :: (queue.items.reduceOption ++ activeOf (q.workers.set worker state)))
      rw [hqueue]
      exact hheld
  · cases hr

theorem Sound.cancelWorker (h : q.Sound) {worker : Nat} (hr : q.cancelWorker worker = some q') :
    q'.Sound ∧ q'.held.Perm q.held ∧ q.WakesAtRest q' := by
  unfold ParseQueue.cancelWorker at hr
  split at hr
  · rename_i hworker
    cases hr
    have hactive : (activeOf (q.workers.set worker (.done true))).Perm q.activeTasks :=
      (activeOf_set hworker (.done true)).symm
    have hheld : (q.pendingTasks ++ activeOf (q.workers.set worker (.done true))).Perm q.held :=
      hactive.append_left _
    have hres := h.reserves.perm hheld.symm
    refine ⟨⟨⟨hres.ids, hres.distinct, hres.messages, hres.bytes⟩, h.active.trans (hactive.symm.map _), ?_,
      h.consistent, h.messages_le, h.bytes_le⟩, hheld, .inl rfl⟩
    refine h.unfinished.trans ?_
    change _ = q.queue.items.length + (activeOf (q.workers.set worker (.done true))).length
    rw [hactive.length_eq]
  · cases hr

/-- Without a busy worker the workers can be exchanged. -/
theorem Sound.withWorkers (h : q.Sound) {workers : List WorkerState} (hbusy : q.activeTasks = [])
    (hworkers : activeOf workers = []) : ({ q with workers } : ParseQueue).Sound := by
  have hactive : ({ q with workers } : ParseQueue).activeTasks = q.activeTasks := by
    rw [hbusy]
    exact hworkers
  have hheld : ({ q with workers } : ParseQueue).held = q.held := congrArg (q.pendingTasks ++ ·) hactive
  refine ⟨?_, ?_, ?_, h.consistent, h.messages_le, h.bytes_le⟩
  · rw [hheld]
    exact ⟨h.reserves.ids, h.reserves.distinct, h.reserves.messages, h.reserves.bytes⟩
  · rw [hactive]
    exact h.active
  · rw [hactive]
    exact h.unfinished

theorem Sound.start (h : q.Sound) : q.start.Sound ∧ q.Grows q.start := by
  unfold ParseQueue.start
  split
  · rename_i hworkers
    have hbusy : q.activeTasks = [] := by
      rw [activeTasks, hworkers]
      rfl
    refine ⟨h.withWorkers hbusy (activeOf_replicate _), fun t ht => ?_, rfl⟩
    rw [held, hbusy, List.append_nil] at ht
    exact List.mem_append_left _ ht
  · exact ⟨h, .refl⟩

/-- Nothing is queued and nothing is reserved. -/
structure Empty (q : ParseQueue) : Prop where
  items : q.queue.items = []
  ids : q.reservedMessageIds = []
  messages : q.reservedMessages = 0
  bytes : q.reservedBytes = 0

/-- Without a busy worker `_discard_queue_contents` leaves nothing. -/
theorem Sound.discard (h : q.Sound) (hbusy : q.activeTasks = []) :
    ∃ q', q.discardQueueContents = .ok q' ∧ q'.Sound ∧ q'.Empty := by
  have hreserves : q.Reserves (q.queue.items.reduceOption ++ q.activeTasks) := h.reserves
  obtain ⟨q', hloop, hitems, hn, hcons, hres, hsame⟩ :=
    discardLoop_ok rfl h.consistent h.unfinished hreserves
  have hactive : q'.activeTasks = q.activeTasks := congrArg activeOf hsame.workers
  have hwithin := h.reserves.within hres (List.sublist_append_right _ _)
  refine ⟨q', hloop, ⟨?_, ?_, ?_, hcons, ?_, ?_⟩, ?_⟩
  · rw [held, pendingTasks, hitems, hactive]
    exact hres
  · rw [hsame.active, hactive]
    exact h.active
  · rw [hn, hitems, hactive, List.length_nil, Nat.zero_add]
  · rw [hsame.maxMessages]
    exact Int.le_trans hwithin.1 h.messages_le
  · rw [hsame.maxBytes]
    exact Int.le_trans hwithin.2 h.bytes_le
  · rw [hbusy] at hres
    exact ⟨hitems, List.perm_nil.mp hres.ids, hres.messages, hres.bytes⟩

/-- Stop sentinels reserve nothing. -/
theorem Sound.putSentinels (h : q.Sound) (n : Nat) :
    ({ q with queue := q.queue.putAll (List.replicate n none) } : ParseQueue).Sound := by
  have hpending : (q.queue.putAll (List.replicate n none)).items.reduceOption = q.pendingTasks := by
    rw [AsyncQueue.items_putAll, List.reduceOption_append, List.reduceOption_replicate_none,
      List.append_nil]
    rfl
  refine ⟨?_, h.active, ?_, h.consistent.putAll _, h.messages_le, h.bytes_le⟩
  · change Reserves _ ((q.queue.putAll (List.replicate n none)).items.reduceOption ++ q.activeTasks)
    rw [hpending]
    exact ⟨h.reserves.ids, h.reserves.distinct, h.reserves.messages, h.reserves.bytes⟩
  · change (q.queue.putAll (List.replicate n none)).unfinishedTasks =
      (q.queue.putAll (List.replicate n none)).items.length + q.activeTasks.length
    rw [AsyncQueue.unfinishedTasks_putAll, AsyncQueue.items_putAll, h.unfinished, List.length_append]
    omega

theorem Sound.beginStop (h : q.Sound) (discardPending : Bool) :
    ∃ waits q', q.beginStop discardPending = .ok (waits, q') ∧ q'.Sound ∧ (waits = false → q'.Empty) := by
  unfold ParseQueue.beginStop
  split
  · rename_i hworkers
    have hbusy : q.activeTasks = [] := by
      rw [activeTasks, hworkers]
      rfl
    obtain ⟨q', hdiscard, hsound, hempty⟩ := h.discard hbusy
    exact ⟨false, q', by rw [hdiscard]; rfl, hsound, fun _ => hempty⟩
  · cases discardPending with
    | true =>
      obtain ⟨q', hclear, hsound, -⟩ := h.removePending fun _ => true
      refine ⟨true, _, ?_, hsound.putSentinels q'.workers.length, fun hwaits => nomatch hwaits⟩
      rw [if_pos rfl, clearPending, hclear]
      rfl
    | false => exact ⟨true, _, rfl, h.putSentinels q.workers.length, fun hwaits => nomatch hwaits⟩

/-- When all workers have ended, the end of `stop` leaves nothing. -/
theorem Sound.endStop (h : q.Sound) (hdone : q.workers.all WorkerState.isDone = true) :
    ∃ q', q.endStop = .ok q' ∧ q'.Sound ∧ q'.Empty := by
  have hbusy : q.activeTasks = [] := activeOf_done hdone
  unfold ParseQueue.endStop
  rw [if_pos hdone]
  have hended : ({ q with workers := [] } : ParseQueue).Sound := h.withWorkers hbusy rfl
  exact hended.discard rfl

end ParseQueue

end RapidInbox.Parser

import RapidInbox.Lib.Condition

/-!
# The mail-maintenance gate

`accept_message` and clear-all around one condition (`runtime.py:386-416`).  A step of the model runs
one task from the point where it was suspended to the next one: in `acquire`, on the future of
`wait`, in `acquire` again after a `wait`, or in its body.  A task may be cancelled at each of them.
-/

namespace RapidInbox

open EventLoop

/-- The four blocks under the condition's lock. -/
inductive GateSection where
  | enterMailAccept
  | leaveMailAccept
  | beginMailMaintenance
  | endMailMaintenance
  deriving DecidableEq, Repr

/-- The three loops around `wait`: of `_enter_mail_accept`, and of `_begin_mail_maintenance` for the
    flag and for the accepts. -/
inductive GateWait where
  | accept
  | maintenance
  | drain
  deriving DecidableEq, Repr

/-- Where a task is suspended. -/
inductive GatePc where
  | acquire (block : GateSection)
  | wait (loop : GateWait)
  | reacquire (loop : GateWait) (cancelled : Bool)
  | acceptBody
  | maintenanceBody
  | finished
  deriving DecidableEq, Repr

/-- The condition, the two variables it guards, and the tasks. -/
structure MailGate where
  condition : Condition Nat
  mailMaintenanceActive : Bool
  activeMailAccepts : Nat
  tasks : List GatePc
  deriving DecidableEq, Repr

/-- Which operation a new task runs. -/
inductive GateTask where
  | acceptMessage
  | clearAllMail
  deriving DecidableEq, Repr

/-- The first block of an operation. -/
def GateTask.first : GateTask → GateSection
  | .acceptMessage => .enterMailAccept
  | .clearAllMail => .beginMailMaintenance

inductive GateEvent where
  | spawn (task : GateTask)
  /-- `Task.cancel` -/
  | cancel (t : Nat)
  /-- the loop runs a task whose future is done -/
  | resume (t : Nat)
  /-- a body ends, by its return or by an exception -/
  | endBody (t : Nat)
  deriving DecidableEq, Repr

namespace MailGate

def initial : MailGate := ⟨⟨⟨false, []⟩, []⟩, false, 0, []⟩

variable (g : MailGate) (t : Nat)

def setPc (pc : GatePc) : MailGate := { g with tasks := g.tasks.set t pc }

def notifyAll : MailGate := { g with condition := g.condition.notifyAll }

def release : MailGate :=
  { g with condition := { g.condition with lock := g.condition.lock.release } }

/-- The lock taken, and the waiter of the task gone. -/
def locked : MailGate :=
  { g with
    condition := { g.condition with
      lock := { locked := true, waiters := dropWaiter t g.condition.lock.waiters } } }

/-- A task queues for the lock. -/
def awaitLock (pc : GatePc) : MailGate :=
  let waiter : Waiter Nat := ⟨t, .pending, false⟩
  { g with
    condition := { g.condition with
      lock := { g.condition.lock with waiters := g.condition.lock.waiters ++ [waiter] } }
    tasks := g.tasks.set t pc }

/-- `acquire` up to its suspension, or the code after it. -/
def acquire (pc : GatePc) (next : MailGate → MailGate) : MailGate :=
  if g.condition.lock.free then next (g.locked t) else g.awaitLock t pc

/-- `wait` up to its suspension. -/
def wait (loop : GateWait) : MailGate :=
  let waiter : Waiter Nat := ⟨t, .pending, false⟩
  { g with
    condition := ⟨g.condition.lock.release, g.condition.waiters ++ [waiter]⟩
    tasks := g.tasks.set t (.wait loop) }

/-- The block of `_enter_mail_accept`. -/
def enterMailAccept : MailGate :=
  if g.mailMaintenanceActive then g.wait t .accept
  else { g with activeMailAccepts := g.activeMailAccepts + 1 }.release.setPc t .acceptBody

/-- The block of `_leave_mail_accept`. -/
def leaveMailAccept : MailGate :=
  if g.activeMailAccepts = 0 then g.release.setPc t .finished
  else if g.activeMailAccepts - 1 = 0 then
    { g with activeMailAccepts := g.activeMailAccepts - 1 }.notifyAll.release.setPc t .finished
  else { g with activeMailAccepts := g.activeMailAccepts - 1 }.release.setPc t .finished

/-- The second loop of `_begin_mail_maintenance`. -/
def drainMailAccepts : MailGate :=
  if g.activeMailAccepts ≠ 0 then g.wait t .drain else g.release.setPc t .maintenanceBody

/-- The block of `_begin_mail_maintenance`. -/
def beginMailMaintenance : MailGate :=
  if g.mailMaintenanceActive then g.wait t .maintenance
  else { g with mailMaintenanceActive := true }.drainMailAccepts t

/-- The block of `_end_mail_maintenance`, and the handler of `_begin_mail_maintenance`. -/
def endMailMaintenance : MailGate :=
  { g with mailMaintenanceActive := false }.notifyAll.release.setPc t .finished

def runSection : GateSection → MailGate
  | .enterMailAccept => g.enterMailAccept t
  | .leaveMailAccept => g.leaveMailAccept t
  | .beginMailMaintenance => g.beginMailMaintenance t
  | .endMailMaintenance => g.endMailMaintenance t

/-- The code after a `wait` that has the lock again: the loop goes on, or `CancelledError` leaves
    the block. -/
def afterWait : GateWait → Bool → MailGate
  | .accept, false => g.enterMailAccept t
  | .maintenance, false => g.beginMailMaintenance t
  | .drain, false => g.drainMailAccepts t
  | .accept, true => g.release.setPc t .finished
  | .maintenance, true => g.release.setPc t .finished
  | .drain, true => g.endMailMaintenance t

/-- `async with` the condition. -/
def enterSection (block : GateSection) : MailGate :=
  g.acquire t (.acquire block) fun g => g.runSection t block

/-- The `finally` of `wait`. -/
def reacquire (loop : GateWait) (cancelled : Bool) : MailGate :=
  g.acquire t (.reacquire loop cancelled) fun g => g.afterWait t loop cancelled

/-- `acquire` raises: the waiter goes, and the next one is woken. -/
def abandonAcquire : MailGate :=
  let lock : Lock Nat :=
    { g.condition.lock with waiters := dropWaiter t g.condition.lock.waiters }
  { g with
    condition := { g.condition with lock := if lock.locked then lock else lock.wakeUpFirst } }

/-- The waiter of a task whose future is done. -/
def ready? (waiters : List (Waiter Nat)) : Option (Waiter Nat) :=
  waiters.find? fun w => w.task = t && w.done

/-- Run a task from where it is suspended. -/
def resume : MailGate :=
  match g.tasks[t]? with
  | some (.acquire block) =>
    match ready? t g.condition.lock.waiters with
    | none => g
    | some w =>
      if w.raises then (g.abandonAcquire t).setPc t .finished
      else (g.locked t).runSection t block
  | some (.wait loop) =>
    match ready? t g.condition.waiters with
    | none => g
    | some w =>
      { g with
        condition := { g.condition with
          waiters := dropWaiter t g.condition.waiters } }.reacquire t loop w.raises
  | some (.reacquire loop cancelled) =>
    match ready? t g.condition.lock.waiters with
    | none => g
    | some w =>
      if w.raises then (g.abandonAcquire t).reacquire t loop true
      else (g.locked t).afterWait t loop cancelled
  | _ => g

/-- `Task.cancel` of a task that awaits the lock or the condition. -/
def cancel : MailGate :=
  { g with
    condition :=
      { lock := { g.condition.lock with
          waiters := updateWaiters Waiter.cancel t g.condition.lock.waiters }
        waiters := updateWaiters Waiter.cancel t g.condition.waiters } }

/-- A new task, which runs up to its first suspension. -/
def spawn (task : GateTask) : MailGate :=
  { g with tasks := g.tasks ++ [GatePc.acquire task.first] }.enterSection g.tasks.length task.first

def step : GateEvent → MailGate
  | .spawn task => g.spawn task
  | .cancel t => g.cancel t
  | .resume t => g.resume t
  | .endBody t =>
    match g.tasks[t]? with
    | some .acceptBody => g.enterSection t .leaveMailAccept
    | some .maintenanceBody => g.enterSection t .endMailMaintenance
    | _ => g

def run (events : List GateEvent) : MailGate := events.foldl step g

end MailGate

/-! ## The invariant -/

/-- A suspension outside the lock: in a body, on the future of `wait`, or at the end. -/
def GatePc.outsideLock : GatePc → Bool
  | .acquire _ => false
  | .reacquire _ _ => false
  | _ => true

/-- The task has set the maintenance flag and not yet reset it. -/
def GatePc.holdsFlag : GatePc → Bool
  | .wait .drain => true
  | .maintenanceBody => true
  | _ => false

namespace MailGate

/-- Between two steps nobody holds the lock, so nobody ever queues for it; the two variables say who
    is inside; and a waiter that is still asleep waits for something that is still so. -/
structure Sound (g : MailGate) : Prop where
  idle : g.condition.lock.Idle
  outside : ∀ pc ∈ g.tasks, pc.outsideLock = true
  accepts : g.activeMailAccepts = g.tasks.countP fun pc => pc = .acceptBody
  holder : g.tasks.countP GatePc.holdsFlag = g.mailMaintenanceActive.toNat
  exclusive : .maintenanceBody ∈ g.tasks → g.activeMailAccepts = 0
  waiting : ∀ t loop, g.tasks[t]? = some (.wait loop) → ∃ w ∈ g.condition.waiters, w.task = t
  registered : ∀ w ∈ g.condition.waiters, ∃ loop, g.tasks[w.task]? = some (.wait loop)
  asleep : ∀ w ∈ g.condition.waiters, w.done = false → g.mailMaintenanceActive = true ∧
    (g.tasks[w.task]? = some (.wait .drain) → g.activeMailAccepts ≠ 0)

/-- The same while task `t` runs with the lock; `accept` and `flag` say what it holds. -/
structure Running (g : MailGate) (t : Nat) (accept flag : Bool) : Prop where
  queue : g.condition.lock.waiters = []
  bound : t < g.tasks.length
  outside : ∀ i pc, i ≠ t → g.tasks[i]? = some pc → pc.outsideLock = true
  accepts : g.activeMailAccepts =
    ((g.tasks.set t .finished).countP fun pc => pc = .acceptBody) + accept.toNat
  holder : (g.tasks.set t .finished).countP GatePc.holdsFlag + flag.toNat =
    g.mailMaintenanceActive.toNat
  exclusive : .maintenanceBody ∈ g.tasks.set t .finished → g.activeMailAccepts = 0
  waiting : ∀ i loop, i ≠ t → g.tasks[i]? = some (.wait loop) →
    ∃ w ∈ g.condition.waiters, w.task = i
  registered : ∀ w ∈ g.condition.waiters, w.task ≠ t ∧ ∃ loop, g.tasks[w.task]? = some (.wait loop)
  asleep : ∀ w ∈ g.condition.waiters, w.done = false → g.mailMaintenanceActive = true ∧
    (g.tasks[w.task]? = some (.wait .drain) → g.activeMailAccepts ≠ 0)

variable {g : MailGate} {t : Nat} {accept flag : Bool} {pc : GatePc}

/-- What a task adds to a count when it is suspended. -/
theorem countP_set_finished {p : GatePc → Bool} (hp : p .finished = false) {tasks : List GatePc}
    (ht : t < tasks.length) :
    (tasks.set t pc).countP p = (tasks.set t .finished).countP p + (p pc).toNat := by
  have hbase : t < (tasks.set t .finished).length := by simpa using ht
  rw [← List.set_set (a := .finished) (b := pc), List.countP_set hbase]
  cases hpc : p pc <;> simp [hp]

/-- The task at a place after one has moved on. -/
theorem getElem?_set_iff {tasks : List GatePc} (ht : t < tasks.length) {i : Nat} {x : GatePc} :
    (tasks.set t pc)[i]? = some x ↔ i = t ∧ x = pc ∨ i ≠ t ∧ tasks[i]? = some x := by
  by_cases hit : i = t
  · subst hit
    rw [List.getElem?_set_self ht]
    simp [eq_comm]
  · rw [List.getElem?_set_ne (Ne.symm hit)]
    simp [hit]

/-- The task gives the lock up and is suspended at `pc`, with a new waiter of the condition if that is
    a `wait`. -/
theorem Running.suspend (h : g.Running t accept flag) {waiters : List (Waiter Nat)}
    (hout : pc.outsideLock = true) (haccept : decide (pc = .acceptBody) = accept)
    (hflag : pc.holdsFlag = flag) (hbody : pc = .maintenanceBody → g.activeMailAccepts = 0)
    (hold : ∀ w ∈ g.condition.waiters, w ∈ waiters)
    (hnew : ∀ w ∈ waiters, w ∈ g.condition.waiters ∨ w.task = t ∧ (∃ loop, pc = .wait loop) ∧
      g.mailMaintenanceActive = true ∧ (pc = .wait .drain → g.activeMailAccepts ≠ 0))
    (hwait : ∀ loop, pc = .wait loop → ∃ w ∈ waiters, w.task = t) :
    Sound
      { g with condition := ⟨g.condition.lock.release, waiters⟩, tasks := g.tasks.set t pc } where
  idle := Lock.release_idle h.queue
  outside := by
    intro pc' hpc'
    obtain ⟨i, hi⟩ := List.mem_iff_getElem?.mp hpc'
    rcases (getElem?_set_iff h.bound).mp hi with ⟨-, rfl⟩ | ⟨hit, hi⟩
    · exact hout
    · exact h.outside i pc' hit hi
  accepts := by
    change g.activeMailAccepts = List.countP _ (g.tasks.set t pc)
    rw [countP_set_finished (by decide) h.bound, haccept]
    exact h.accepts
  holder := by
    change List.countP _ (g.tasks.set t pc) = _
    rw [countP_set_finished rfl h.bound, hflag]
    exact h.holder
  exclusive := by
    intro hmem
    obtain ⟨i, hi⟩ := List.mem_iff_getElem?.mp hmem
    rcases (getElem?_set_iff h.bound).mp hi with ⟨-, hpc⟩ | ⟨hit, hi⟩
    · exact hbody hpc.symm
    · apply h.exclusive
      exact List.mem_iff_getElem?.mpr ⟨i, (getElem?_set_iff h.bound).mpr (.inr ⟨hit, hi⟩)⟩
  waiting := by
    intro i loop hi
    rcases (getElem?_set_iff h.bound).mp hi with ⟨rfl, hpc⟩ | ⟨hit, hi⟩
    · exact hwait loop hpc.symm
    · obtain ⟨w, hw, htask⟩ := h.waiting i loop hit hi
      exact ⟨w, hold w hw, htask⟩
  registered := by
    intro w hw
    rcases hnew w hw with hw | ⟨rfl, ⟨loop, rfl⟩, -⟩
    · obtain ⟨hne, loop, hloop⟩ := h.registered w hw
      exact ⟨loop, (getElem?_set_iff h.bound).mpr (.inr ⟨hne, hloop⟩)⟩
    · exact ⟨loop, (getElem?_set_iff h.bound).mpr (.inl ⟨rfl, rfl⟩)⟩
  asleep := by
    intro w hw hdone
    rcases hnew w hw with hw | ⟨rfl, -, hactive, hdrain⟩
    · obtain ⟨hactive, hdrain⟩ := h.asleep w hw hdone
      refine ⟨hactive, fun hpc => hdrain ?_⟩
      rcases (getElem?_set_iff h.bound).mp hpc with ⟨htask, -⟩ | ⟨-, hpc⟩
      · exact absurd htask (h.registered w hw).1
      · exact hpc
    · refine ⟨hactive, fun hpc => hdrain ?_⟩
      rcases (getElem?_set_iff h.bound).mp hpc with ⟨-, hpc⟩ | ⟨hne, -⟩
      · exact hpc.symm
      · exact absurd rfl hne

/-- The task is suspended in a body or is finished. -/
theorem Running.settle (h : g.Running t accept flag) (hout : pc.outsideLock = true)
    (hwait : ∀ loop, pc ≠ .wait loop) (haccept : decide (pc = .acceptBody) = accept)
    (hflag : pc.holdsFlag = flag) (hbody : pc = .maintenanceBody → g.activeMailAccepts = 0) :
    (g.release.setPc t pc).Sound :=
  h.suspend hout haccept hflag hbody (fun _ hw => hw) (fun _ hw => .inl hw)
    fun loop hpc => absurd hpc (hwait loop)

/-- The task waits for a notification, for a reason that holds. -/
theorem Running.wait (h : g.Running t false flag) {loop : GateWait}
    (hflag : decide (loop = .drain) = flag) (hactive : g.mailMaintenanceActive = true)
    (hdrain : loop = .drain → g.activeMailAccepts ≠ 0) : (g.wait t loop).Sound := by
  apply h.suspend
  · rfl
  · rfl
  · rw [← hflag]
    cases loop <;> rfl
  · exact nofun
  · exact fun w hw => List.mem_append_left _ hw
  · intro w hw
    rcases List.mem_append.mp hw with hw | hw
    · exact .inl hw
    · rw [List.mem_singleton.mp hw]
      exact .inr ⟨rfl, ⟨loop, rfl⟩, hactive, fun hpc => hdrain (GatePc.wait.inj hpc)⟩
  · exact fun _ _ => ⟨_, List.mem_append_right _ (List.mem_singleton.mpr rfl), rfl⟩

/-! ## The blocks -/

/-- Nobody is asleep after `notify_all`, so the variables may change before it. -/
theorem Running.notifyAll (h : g.Running t accept flag) {accept' flag' active : Bool} {n : Nat}
    (haccepts : n =
      ((g.tasks.set t .finished).countP fun pc => pc = .acceptBody) + accept'.toNat)
    (hholder : (g.tasks.set t .finished).countP GatePc.holdsFlag + flag'.toNat = active.toNat)
    (hexclusive : .maintenanceBody ∈ g.tasks.set t .finished → n = 0) :
    Running
      (MailGate.notifyAll { g with mailMaintenanceActive := active, activeMailAccepts := n }) t
      accept' flag' :=
  { h with
    accepts := haccepts
    holder := hholder
    exclusive := hexclusive
    waiting := by
      intro i loop hit hi
      obtain ⟨w, hw, htask⟩ := h.waiting i loop hit hi
      exact ⟨w.resolve, List.mem_map_of_mem hw, w.resolve_task.trans htask⟩
    registered := by
      intro w hw
      obtain ⟨w', hw', rfl⟩ := List.mem_map.mp hw
      rw [w'.resolve_task]
      exact h.registered w' hw'
    asleep := by
      intro w hw hdone
      obtain ⟨w', -, rfl⟩ := List.mem_map.mp hw
      rw [w'.resolve_done] at hdone
      cases hdone }

theorem Running.enterMailAccept (h : g.Running t false false) : (g.enterMailAccept t).Sound := by
  unfold MailGate.enterMailAccept
  split
  · rename_i hactive
    exact h.wait rfl hactive nofun
  · rename_i hopen
    have hfalse : g.mailMaintenanceActive = false := by simpa using hopen
    have hnone : (g.tasks.set t .finished).countP GatePc.holdsFlag = 0 := by
      have hholder := h.holder
      rw [hfalse] at hholder
      simpa using hholder
    have hrun : Running { g with activeMailAccepts := g.activeMailAccepts + 1 } t true false :=
      { h with
        accepts := by simpa using h.accepts
        exclusive := fun hmem => absurd rfl (List.countP_eq_zero.mp hnone _ hmem)
        asleep := fun w hw hdone => absurd (h.asleep w hw hdone).1 hopen }
    exact hrun.settle rfl nofun rfl rfl nofun

theorem Running.leaveMailAccept (h : g.Running t true false) : (g.leaveMailAccept t).Sound := by
  have hpos : g.activeMailAccepts ≠ 0 := by
    rw [h.accepts]
    simp
  have haccepts : g.activeMailAccepts - 1 =
      ((g.tasks.set t .finished).countP fun pc => pc = .acceptBody) + false.toNat := by
    rw [h.accepts]
    simp
  have hbody (hmem : .maintenanceBody ∈ g.tasks.set t .finished) : g.activeMailAccepts - 1 = 0 := by
    rw [h.exclusive hmem]
  unfold MailGate.leaveMailAccept
  split
  · exact absurd ‹_› hpos
  · split
    · exact (h.notifyAll haccepts h.holder hbody).settle rfl nofun rfl rfl nofun
    · rename_i hmore
      have hrun : Running { g with activeMailAccepts := g.activeMailAccepts - 1 } t false false :=
        { h with
          accepts := haccepts
          exclusive := hbody
          asleep := fun w hw hdone => ⟨(h.asleep w hw hdone).1, fun _ => hmore⟩ }
      exact hrun.settle rfl nofun rfl rfl nofun

theorem Running.drainMailAccepts (h : g.Running t false true) : (g.drainMailAccepts t).Sound := by
  have hactive : g.mailMaintenanceActive = true := by
    have hholder := h.holder
    by_contra hopen
    rw [Bool.not_eq_true] at hopen
    simp [hopen] at hholder
  unfold MailGate.drainMailAccepts
  split
  · rename_i hmore
    exact h.wait rfl hactive fun _ => hmore
  · rename_i hnone
    exact h.settle rfl nofun rfl rfl fun _ => not_not.mp hnone

theorem Running.beginMailMaintenance (h : g.Running t false false) :
    (g.beginMailMaintenance t).Sound := by
  unfold MailGate.beginMailMaintenance
  split
  · rename_i hactive
    exact h.wait rfl hactive nofun
  · rename_i hopen
    have hrun : Running { g with mailMaintenanceActive := true } t false true :=
      { h with
        holder := by
          have hholder := h.holder
          rw [Bool.not_eq_true] at hopen
          simpa [hopen] using hholder
        asleep := fun w hw hdone => absurd (h.asleep w hw hdone).1 hopen }
    exact hrun.drainMailAccepts

theorem Running.endMailMaintenance (h : g.Running t false true) :
    (g.endMailMaintenance t).Sound := by
  have hholder : (g.tasks.set t .finished).countP GatePc.holdsFlag + 1 =
      g.mailMaintenanceActive.toNat := h.holder
  have hle := Bool.toNat_le g.mailMaintenanceActive
  have hnone : (g.tasks.set t .finished).countP GatePc.holdsFlag + false.toNat = false.toNat := by
    simp only [Bool.toNat_false]
    omega
  exact (h.notifyAll h.accepts hnone h.exclusive).settle rfl nofun rfl rfl nofun

/-- What a task suspended on a loop of the condition holds. -/
theorem Running.afterWait {loop : GateWait} (h : g.Running t false (decide (loop = .drain)))
    (cancelled : Bool) : (g.afterWait t loop cancelled).Sound := by
  cases loop <;> cases cancelled
  · exact h.enterMailAccept
  · exact h.settle rfl nofun rfl rfl nofun
  · exact h.beginMailMaintenance
  · exact h.settle rfl nofun rfl rfl nofun
  · exact h.drainMailAccepts
  · exact h.endMailMaintenance

/-! ## The steps -/

/-- The lock is free, so the task goes on. -/
theorem acquire_idle (h : g.condition.lock.Idle) (pc : GatePc) (next : MailGate → MailGate) :
    g.acquire t pc next = next (g.locked t) := by
  rw [acquire, if_pos h.free]

/-- A task takes the lock with what it holds, its waiter gone. -/
theorem Sound.running (h : g.Sound) (ht : g.tasks[t]? = some pc) :
    Running
      (locked
        { g with condition := ⟨g.condition.lock, dropWaiter t g.condition.waiters⟩ } t) t
      (decide (pc = .acceptBody)) pc.holdsFlag := by
  have hbound : t < g.tasks.length := (List.getElem?_eq_some_iff.mp ht).1
  have hself : g.tasks.set t pc = g.tasks := by
    apply List.ext_getElem?
    intro i
    by_cases hit : i = t
    · subst hit
      rw [List.getElem?_set_self hbound, ht]
    · rw [List.getElem?_set_ne (Ne.symm hit)]
  have haccepts : g.activeMailAccepts =
      ((g.tasks.set t .finished).countP fun pc => pc = .acceptBody) +
        (decide (pc = .acceptBody)).toNat := by
    rw [← countP_set_finished (p := fun pc => decide (pc = .acceptBody)) (by decide) hbound, hself]
    exact h.accepts
  have hholder : (g.tasks.set t .finished).countP GatePc.holdsFlag + pc.holdsFlag.toNat =
      g.mailMaintenanceActive.toNat := by
    rw [← countP_set_finished rfl hbound, hself]
    exact h.holder
  refine
    { queue := by simp [locked, dropWaiter, h.idle.2]
      bound := hbound
      outside := fun i pc' _ hi => h.outside pc' (List.mem_iff_getElem?.mpr ⟨i, hi⟩)
      accepts := haccepts
      holder := hholder
      exclusive := ?_
      waiting := ?_
      registered := ?_
      asleep := fun w hw => h.asleep w (List.mem_of_mem_filter hw) }
  · intro hmem
    rcases List.mem_or_eq_of_mem_set hmem with hmem | hmem
    · exact h.exclusive hmem
    · cases hmem
  · intro i loop hit hi
    obtain ⟨w, hw, htask⟩ := h.waiting i loop hi
    exact ⟨w, List.mem_filter.mpr ⟨hw, by simpa [htask] using hit⟩, htask⟩
  · intro w hw
    obtain ⟨hw, hne⟩ := List.mem_filter.mp hw
    exact ⟨by simpa using hne, h.registered w hw⟩

/-- A task outside the condition has no waiter there. -/
theorem Sound.dropWaiter_eq (h : g.Sound) (ht : ∀ loop, g.tasks[t]? ≠ some (.wait loop)) :
    dropWaiter t g.condition.waiters = g.condition.waiters := by
  apply List.filter_eq_self.mpr
  intro w hw
  obtain ⟨loop, hloop⟩ := h.registered w hw
  apply decide_eq_true
  rintro rfl
  exact ht loop hloop

theorem Sound.spawn (h : g.Sound) (task : GateTask) : (g.spawn task).Sound := by
  have hrun : Running
      (locked { g with tasks := g.tasks ++ [GatePc.acquire task.first] } g.tasks.length)
      g.tasks.length false false := by
    have hset : (locked { g with tasks := g.tasks ++ [GatePc.acquire task.first] }
        g.tasks.length).tasks.set g.tasks.length .finished = g.tasks ++ [.finished] := by
      simp [locked]
    have hold {i : Nat} {pc : GatePc} (hit : i ≠ g.tasks.length)
        (hi : (g.tasks ++ [GatePc.acquire task.first])[i]? = some pc) : g.tasks[i]? = some pc := by
      rcases Nat.lt_or_ge i g.tasks.length with hlt | hge
      · rwa [List.getElem?_append_left hlt] at hi
      · have hnone : (g.tasks ++ [GatePc.acquire task.first])[i]? = none := by
          rw [List.getElem?_eq_none_iff, List.length_append, List.length_singleton]
          omega
        rw [hnone] at hi
        cases hi
    have hreg (w : Waiter Nat) (hw : w ∈ g.condition.waiters) :
        w.task < g.tasks.length ∧ ∃ loop, g.tasks[w.task]? = some (.wait loop) := by
      obtain ⟨loop, hloop⟩ := h.registered w hw
      exact ⟨(List.getElem?_eq_some_iff.mp hloop).1, loop, hloop⟩
    exact
      { queue := by simp [locked, dropWaiter, h.idle.2]
        bound := by simp [locked]
        outside := fun i pc hit hi => h.outside pc (List.mem_iff_getElem?.mpr ⟨i, hold hit hi⟩)
        accepts := by
          rw [hset, List.countP_append, ← h.accepts]
          rfl
        holder := by
          rw [hset, List.countP_append, h.holder]
          rfl
        exclusive := by
          intro hmem
          rw [hset] at hmem
          exact h.exclusive (by simpa using hmem)
        waiting := fun i loop hit hi => h.waiting i loop (hold hit hi)
        registered := by
          intro w hw
          obtain ⟨hlt, loop, hloop⟩ := hreg w hw
          refine ⟨Nat.ne_of_lt hlt, loop, ?_⟩
          change (g.tasks ++ _)[w.task]? = _
          rwa [List.getElem?_append_left hlt]
        asleep := by
          intro w hw hdone
          obtain ⟨hlt, -⟩ := hreg w hw
          obtain ⟨hactive, hdrain⟩ := h.asleep w hw hdone
          refine ⟨hactive, fun hpc => hdrain ?_⟩
          exact hold (Nat.ne_of_lt hlt) hpc }
  unfold MailGate.spawn enterSection
  rw [acquire_idle (by exact h.idle)]
  cases task with
  | acceptMessage => exact hrun.enterMailAccept
  | clearAllMail => exact hrun.beginMailMaintenance

theorem Sound.endBody (h : g.Sound) (t : Nat) : (g.step (.endBody t)).Sound := by
  unfold step
  dsimp only
  split
  · rename_i ht
    have hrun := h.running ht
    rw [h.dropWaiter_eq (by simp [ht])] at hrun
    unfold enterSection
    rw [acquire_idle h.idle]
    exact hrun.leaveMailAccept
  · rename_i ht
    have hrun := h.running ht
    rw [h.dropWaiter_eq (by simp [ht])] at hrun
    unfold enterSection
    rw [acquire_idle h.idle]
    exact hrun.endMailMaintenance
  · exact h

theorem Sound.resume (h : g.Sound) (t : Nat) : (g.resume t).Sound := by
  unfold MailGate.resume
  split
  · rename_i block ht
    exact absurd (h.outside _ (List.mem_iff_getElem?.mpr ⟨t, ht⟩)) nofun
  · rename_i loop ht
    split
    · exact h
    · rename_i w _
      have hrun := h.running ht
      unfold MailGate.reacquire
      rw [acquire_idle (by exact h.idle)]
      have hflag : (GatePc.wait loop).holdsFlag = decide (loop = .drain) := by cases loop <;> rfl
      rw [hflag] at hrun
      exact hrun.afterWait w.raises
  · rename_i loop cancelled ht
    exact absurd (h.outside _ (List.mem_iff_getElem?.mpr ⟨t, ht⟩)) nofun
  · exact h

/-- A cancellation changes the future of one waiter; a waiter that is awake stays awake. -/
theorem Sound.cancel (h : g.Sound) (t : Nat) : (g.cancel t).Sound := by
  have hmem {w : Waiter Nat} (hw : w ∈ updateWaiters Waiter.cancel t g.condition.waiters) :
      ∃ w' ∈ g.condition.waiters, w.task = w'.task ∧ (w.done = false → w'.done = false) := by
    obtain ⟨w', hw', rfl⟩ := List.mem_map.mp hw
    refine ⟨w', hw', ?_⟩
    split
    · refine ⟨w'.cancel_task, fun hdone => ?_⟩
      by_contra hawake
      rw [Bool.not_eq_false] at hawake
      rw [w'.cancel_done hawake] at hdone
      cases hdone
    · exact ⟨rfl, id⟩
  exact
    { h with
      idle := ⟨h.idle.1, by simp [MailGate.cancel, updateWaiters, h.idle.2]⟩
      waiting := by
        intro i loop hi
        obtain ⟨w, hw, rfl⟩ := h.waiting i loop hi
        refine ⟨_, List.mem_map_of_mem hw, ?_⟩
        split
        · exact w.cancel_task
        · rfl
      registered := by
        intro w hw
        obtain ⟨w', hw', htask, -⟩ := hmem hw
        rw [htask]
        exact h.registered w' hw'
      asleep := by
        intro w hw hdone
        obtain ⟨w', hw', htask, hback⟩ := hmem hw
        rw [htask]
        exact h.asleep w' hw' (hback hdone) }

theorem Sound.step (h : g.Sound) (e : GateEvent) : (g.step e).Sound := by
  cases e with
  | spawn task => exact h.spawn task
  | cancel t => exact h.cancel t
  | resume t => exact h.resume t
  | endBody t => exact h.endBody t

theorem initial_sound : initial.Sound where
  idle := ⟨rfl, rfl⟩
  outside := nofun
  accepts := rfl
  holder := rfl
  exclusive := nofun
  waiting := nofun
  registered := nofun
  asleep := nofun

theorem run_sound (events : List GateEvent) : (initial.run events).Sound := by
  have hrun (g : MailGate) (h : g.Sound) : (g.run events).Sound := by
    induction events generalizing g with
    | nil => exact h
    | cons e events ih => exact ih (g.step e) (h.step e)
  exact hrun initial initial_sound

/-- What the variables of the gate mean. -/
structure Exact (g : MailGate) : Prop where
  /-- The count is the number of accept bodies. -/
  accepts : g.activeMailAccepts = g.tasks.countP fun pc => pc = .acceptBody
  /-- No accept body runs while a maintenance body runs. -/
  exclusive : .maintenanceBody ∈ g.tasks → .acceptBody ∉ g.tasks
  /-- Two maintenance bodies never overlap. -/
  single : (g.tasks.countP fun pc => pc = .maintenanceBody) ≤ 1
  /-- The flag is set by a task that is inside or waits for the accepts to end. -/
  flag : g.mailMaintenanceActive = true ↔ .maintenanceBody ∈ g.tasks ∨ .wait .drain ∈ g.tasks
  /-- No task is suspended in the lock, with a count or the flag that it was about to give back. -/
  unlocked : ∀ pc ∈ g.tasks, pc.outsideLock = true
  /-- When every task is finished, the gate is open. -/
  released : (∀ pc ∈ g.tasks, pc = .finished) →
    g.activeMailAccepts = 0 ∧ g.mailMaintenanceActive = false
  /-- While the flag is not set, every task that waits for it has been woken. -/
  woken : g.mailMaintenanceActive = false → ∀ t loop, g.tasks[t]? = some (.wait loop) →
    ∃ w ∈ g.condition.waiters, w.task = t ∧ w.done = true
  /-- While there is no accept, the task that waits for the last one has been woken. -/
  drained : g.activeMailAccepts = 0 → ∀ t, g.tasks[t]? = some (.wait .drain) →
    ∃ w ∈ g.condition.waiters, w.task = t ∧ w.done = true

theorem Sound.exact (h : g.Sound) : g.Exact := by
  have hflag : g.mailMaintenanceActive = true ↔ ∃ pc ∈ g.tasks, pc.holdsFlag = true := by
    rw [← List.countP_pos_iff, h.holder]
    cases g.mailMaintenanceActive <;> simp
  have hholds (pc : GatePc) :
      pc.holdsFlag = true ↔ pc = .maintenanceBody ∨ pc = .wait .drain := by
    rcases pc with _ | ⟨⟨⟩⟩ | _ | _ | _ | _ <;> simp [GatePc.holdsFlag]
  have hinside : g.mailMaintenanceActive = true ↔
      .maintenanceBody ∈ g.tasks ∨ .wait .drain ∈ g.tasks := by
    rw [hflag]
    constructor
    · rintro ⟨pc, hpc, hhold⟩
      rcases (hholds pc).mp hhold with rfl | rfl
      · exact .inl hpc
      · exact .inr hpc
    · rintro (hpc | hpc)
      · exact ⟨_, hpc, rfl⟩
      · exact ⟨_, hpc, rfl⟩
  refine
    { accepts := h.accepts
      exclusive := ?_
      single := ?_
      flag := hinside
      unlocked := h.outside
      released := ?_
      woken := ?_
      drained := ?_ }
  · intro hbody haccept
    have hpos : 0 < g.activeMailAccepts := by
      rw [h.accepts]
      exact List.countP_pos_iff.mpr ⟨_, haccept, by simp⟩
    have hzero := h.exclusive hbody
    omega
  · have hle : (g.tasks.countP fun pc => pc = .maintenanceBody) ≤
        g.tasks.countP GatePc.holdsFlag := by
      apply List.countP_mono_left
      intro pc _ hpc
      exact (hholds pc).mpr (.inl (by simpa using hpc))
    have hbool := Bool.toNat_le g.mailMaintenanceActive
    have hholder := h.holder
    omega
  · intro hfinished
    constructor
    · rw [h.accepts, List.countP_eq_zero]
      intro pc hpc
      simp [hfinished pc hpc]
    · rw [← Bool.not_eq_true, hinside]
      rintro (hpc | hpc)
      · exact absurd (hfinished _ hpc) nofun
      · exact absurd (hfinished _ hpc) nofun
  · intro hopen t loop ht
    obtain ⟨w, hw, htask⟩ := h.waiting t loop ht
    refine ⟨w, hw, htask, ?_⟩
    by_contra hasleep
    rw [Bool.not_eq_true] at hasleep
    rw [(h.asleep w hw hasleep).1] at hopen
    cases hopen
  · intro hzero t ht
    obtain ⟨w, hw, htask⟩ := h.waiting t .drain ht
    refine ⟨w, hw, htask, ?_⟩
    by_contra hasleep
    rw [Bool.not_eq_true] at hasleep
    exact (h.asleep w hw hasleep).2 (htask ▸ ht) hzero

/-- In every run of accepts and maintenance operations, with any task cancelled at any of its
    suspension points, the gate counts exactly who is inside, keeps the two kinds of bodies apart and
    is open when nobody is inside. -/
theorem mail_maintenance_gate (events : List GateEvent) : (initial.run events).Exact :=
  (run_sound events).exact

/-- Clear-all is cancelled while it waits for an accept; the accept that it had kept out goes on. -/
example : ((initial.run [.spawn .acceptMessage, .spawn .clearAllMail, .spawn .acceptMessage,
    .cancel 1, .resume 1, .resume 2]).tasks,
    (initial.run [.spawn .acceptMessage, .spawn .clearAllMail, .spawn .acceptMessage]).tasks) =
    ([.acceptBody, .finished, .acceptBody], [.acceptBody, .wait .drain, .wait .accept]) := by
  decide

end MailGate

end RapidInbox

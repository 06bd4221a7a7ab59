import RapidInbox.Lib.Condition

/-!
# Events and queues of an event loop

`asyncio.Event` and an unbounded `asyncio.Queue`.  A queue counts the items that were put and for
which `task_done` has not been called; `join` awaits an event that is set when the count reaches zero
and does not look at the count again when it is woken.
-/

namespace EventLoop

variable {α τ : Type*}

/-- `asyncio.Event`. -/
structure Event (τ : Type*) where
  value : Bool
  waiters : List (Waiter τ)
  deriving DecidableEq, Repr

namespace Event

variable (e : Event τ)

def set : Event τ := if e.value then e else ⟨true, e.waiters.map Waiter.resolve⟩

def clear : Event τ := { e with value := false }

/-- `wait` up to its `await`; the call has no waiter if the event is set. -/
def wait (t : τ) : Event τ :=
  if e.value then e else { e with waiters := e.waiters ++ [⟨t, .pending, false⟩] }

/-- The waiter of a task. -/
def waiter? [DecidableEq τ] (t : τ) : Option (Waiter τ) := e.waiters.find? fun w => w.task = t

/-- The `finally` clause of `wait`. -/
def leave [DecidableEq τ] (t : τ) : Event τ := { e with waiters := dropWaiter t e.waiters }

/-- A waiting task is cancelled. -/
def cancel [DecidableEq τ] (t : τ) : Event τ :=
  { e with waiters := updateWaiters Waiter.cancel t e.waiters }

variable {e : Event τ} {k t : τ}

/-- A waiting task has been woken. -/
def Resolved (e : Event τ) (k : τ) : Prop := ∃ w ∈ e.waiters, w.task = k ∧ w.future = .resolved

theorem Resolved.of_wait (h : (e.wait t).Resolved k) : e.Resolved k := by
  unfold Event.wait at h
  split at h
  · exact h
  · obtain ⟨w, hw, hk, hresolved⟩ := h
    rcases List.mem_append.mp hw with hw | hw
    · exact ⟨w, hw, hk, hresolved⟩
    · rw [List.mem_singleton.mp hw] at hresolved
      cases hresolved

theorem Resolved.of_leave [DecidableEq τ] (h : (e.leave t).Resolved k) : e.Resolved k := by
  obtain ⟨w, hw, hk, hresolved⟩ := h
  exact ⟨w, List.mem_of_mem_filter hw, hk, hresolved⟩

theorem Resolved.of_cancel [DecidableEq τ] (h : (e.cancel t).Resolved k) : e.Resolved k := by
  obtain ⟨w, hw, hk, hresolved⟩ := h
  obtain ⟨w₀, hw₀, rfl⟩ := List.mem_map.mp hw
  split at hk
  · rename_i hmine
    rw [if_pos hmine] at hresolved
    rw [Waiter.cancel_task] at hk
    refine ⟨w₀, hw₀, hk, ?_⟩
    unfold Waiter.cancel at hresolved
    split at hresolved
    · cases hresolved
    · assumption
    · rename_i hcancelled
      rw [hcancelled] at hresolved
      cases hresolved
  · rename_i hother
    rw [if_neg hother] at hresolved
    exact ⟨w₀, hw₀, hk, hresolved⟩

theorem value_wait : (e.wait t).value = e.value := by
  unfold Event.wait
  split <;> rfl

/-- The waiter that `waiter?` finds. -/
theorem mem_of_waiter? [DecidableEq τ] {w : Waiter τ} (h : e.waiter? t = some w) :
    w ∈ e.waiters ∧ w.task = t :=
  ⟨List.mem_of_find?_eq_some h, by simpa using List.find?_some h⟩

end Event

/-- `asyncio.Queue()`; `finished` is the event of `join`. -/
structure AsyncQueue (α τ : Type*) where
  items : List α
  unfinishedTasks : Nat
  finished : Event τ
  deriving DecidableEq, Repr

namespace AsyncQueue

def empty : AsyncQueue α τ := ⟨[], 0, ⟨true, []⟩⟩

variable (q : AsyncQueue α τ)

def putNowait (item : α) : AsyncQueue α τ :=
  { items := q.items ++ [item]
    unfinishedTasks := q.unfinishedTasks + 1
    finished := q.finished.clear }

/-- `task_done`; `none` is the `ValueError` of a call too many. -/
def taskDone : Option (AsyncQueue α τ) :=
  match q.unfinishedTasks with
  | 0 => none
  | n + 1 => some { q with unfinishedTasks := n, finished := if n = 0 then q.finished.set else q.finished }

/-- `put_nowait` of several items. -/
def putAll (items : List α) : AsyncQueue α τ := items.foldl putNowait q

/-- The waiters of `join` after a call of `task_done` that leaves `n` tasks unfinished. -/
def woken (n : Nat) (waiters : List (Waiter τ)) : List (Waiter τ) :=
  if n = 0 then waiters.map Waiter.resolve else waiters

/-- The event of `join` is set if and only if nothing is unfinished. -/
def Consistent : Prop := q.finished.value = true ↔ q.unfinishedTasks = 0

variable {q}

theorem consistent_empty : (empty : AsyncQueue α τ).Consistent := ⟨fun _ => rfl, fun _ => rfl⟩

theorem Consistent.putNowait (item : α) : (q.putNowait item).Consistent :=
  ⟨fun h => (Bool.false_ne_true h).elim, fun h => (Nat.succ_ne_zero _ h).elim⟩

theorem items_putAll (items : List α) : (q.putAll items).items = q.items ++ items := by
  unfold putAll
  induction items generalizing q with
  | nil => simp
  | cons item items ih =>
    rw [List.foldl_cons, ih]
    simp [AsyncQueue.putNowait]

theorem unfinishedTasks_putAll (items : List α) :
    (q.putAll items).unfinishedTasks = q.unfinishedTasks + items.length := by
  unfold putAll
  induction items generalizing q with
  | nil => rfl
  | cons item items ih =>
    rw [List.foldl_cons, ih, List.length_cons]
    simp only [AsyncQueue.putNowait]
    omega

theorem waiters_putAll (items : List α) : (q.putAll items).finished.waiters = q.finished.waiters := by
  unfold putAll
  induction items generalizing q with
  | nil => rfl
  | cons item items ih =>
    rw [List.foldl_cons, ih]
    rfl

theorem Consistent.putAll (h : q.Consistent) (items : List α) : (q.putAll items).Consistent := by
  unfold AsyncQueue.putAll
  induction items generalizing q with
  | nil => exact h
  | cons item items ih =>
    rw [List.foldl_cons]
    exact ih (.putNowait item)

/-- A call of `task_done` for an unfinished task. -/
theorem taskDone_eq {n : Nat} (hq : q.Consistent) (h : q.unfinishedTasks = n + 1) :
    ∃ q', q.taskDone = some q' ∧ q'.items = q.items ∧ q'.unfinishedTasks = n ∧ q'.Consistent ∧
      q'.finished.waiters = woken n q.finished.waiters := by
  have hclear : q.finished.value = false := by
    rw [← Bool.not_eq_true]
    intro hset
    rw [hq.mp hset] at h
    exact Nat.succ_ne_zero n h.symm
  rw [taskDone, h]
  refine ⟨_, rfl, rfl, rfl, ?_, ?_⟩
  · unfold Consistent
    by_cases hn : n = 0
    · simp [hn, Event.set, hclear]
    · simp [hn, hclear]
  · unfold woken
    by_cases hn : n = 0
    · simp [hn, Event.set, hclear]
    · simp [hn]

end AsyncQueue

end EventLoop

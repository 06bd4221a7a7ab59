import Mathlib.Data.List.Basic

/-!
# Locks and conditions of an event loop

`asyncio.Lock` and `asyncio.Condition` as data: who waits, and whether the future of a waiter is
done.  The tasks of a loop run one at a time and only give up control when they await a future that
is not done, so everything between two such points is one step.
-/

namespace EventLoop

variable {τ : Type*}

/-- The state of a future that a waiter awaits. -/
inductive Future where
  | pending
  | resolved
  | cancelled
  deriving DecidableEq, Repr

/-- A waiter of a lock or of a condition.  `mustCancel` is a cancellation that arrived after the
    future was resolved, and is raised when the task runs. -/
structure Waiter (τ : Type*) where
  task : τ
  future : Future
  mustCancel : Bool
  deriving DecidableEq, Repr

namespace Waiter

/-- The task can run. -/
def done (w : Waiter τ) : Bool := w.future ≠ .pending

/-- `await` raises `CancelledError`. -/
def raises (w : Waiter τ) : Bool := w.future = .cancelled || w.mustCancel

/-- `set_result` of a future that is not done. -/
def resolve (w : Waiter τ) : Waiter τ :=
  if w.future = .pending then { w with future := .resolved } else w

/-- `Task.cancel`. -/
def cancel (w : Waiter τ) : Waiter τ :=
  match w.future with
  | .pending => { w with future := .cancelled }
  | .resolved => { w with mustCancel := true }
  | .cancelled => w

theorem resolve_task (w : Waiter τ) : w.resolve.task = w.task := by
  unfold resolve
  split <;> rfl

theorem resolve_done (w : Waiter τ) : w.resolve.done = true := by
  unfold resolve done
  split <;> simp_all

theorem cancel_task (w : Waiter τ) : w.cancel.task = w.task := by
  unfold cancel
  split <;> rfl

theorem cancel_done (w : Waiter τ) (h : w.done = true) : w.cancel.done = true := by
  unfold cancel done at *
  split <;> simp_all

end Waiter

/-- The waiters of a task, changed. -/
def updateWaiters [DecidableEq τ] (f : Waiter τ → Waiter τ) (t : τ) (waiters : List (Waiter τ)) :
    List (Waiter τ) :=
  waiters.map fun w => if w.task = t then f w else w

/-- The waiters of the other tasks. -/
def dropWaiter [DecidableEq τ] (t : τ) (waiters : List (Waiter τ)) : List (Waiter τ) :=
  waiters.filter fun w => w.task ≠ t

/-- `asyncio.Lock`. -/
structure Lock (τ : Type*) where
  locked : Bool
  waiters : List (Waiter τ)
  deriving DecidableEq, Repr

namespace Lock

variable (l : Lock τ)

/-- `acquire` returns at once. -/
def free : Bool := !l.locked && l.waiters.all fun w => w.future = .cancelled

/-- `_wake_up_first`. -/
def wakeUpFirst : Lock τ :=
  match l.waiters with
  | [] => l
  | w :: rest => { l with waiters := w.resolve :: rest }

def release : Lock τ := { l with locked := false }.wakeUpFirst

/-- Nobody holds the lock or waits for it. -/
def Idle : Prop := l.locked = false ∧ l.waiters = []

variable {l}

theorem Idle.free (h : l.Idle) : l.free = true := by simp [Lock.free, h.1, h.2]

theorem release_idle (h : l.waiters = []) : l.release.Idle := by
  simp [release, wakeUpFirst, Idle, h]

end Lock

/-- `asyncio.Condition`. -/
structure Condition (τ : Type*) where
  lock : Lock τ
  waiters : List (Waiter τ)
  deriving DecidableEq, Repr

/-- `notify_all`. -/
def Condition.notifyAll (c : Condition τ) : Condition τ :=
  { c with waiters := c.waiters.map Waiter.resolve }

end EventLoop

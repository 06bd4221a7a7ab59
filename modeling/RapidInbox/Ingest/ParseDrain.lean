import RapidInbox.Ingest.ParseRuns

/-!
# Draining the parse queue

`drain` (`queue.py:158-159`) awaits `join`, which is woken when the count of unfinished tasks reaches
zero and does not look at it again.  `remove_pending` (`queue.py:164-181`) calls `task_done` for the
tasks it retains, before it puts them back: while no worker holds a task, the count passes through zero.
-/

namespace RapidInbox.Parser

open EventLoop

/-- The system since a call of `drain`, with the tasks of that time that were neither finished by a
    worker nor removed. -/
structure Watched where
  system : ParseSystem
  outstanding : List ParseTask

namespace Watched

/-- A step of the system settles some of the tasks. -/
def next (w : Watched) (a : Action) : Option Watched :=
  match w.system.step a with
  | some (.ok (s, l)) => some ⟨s, w.outstanding.filter fun t => !l.settles t⟩
  | _ => none

/-- A `remove_pending` that finds no task with a worker retains no outstanding task. -/
def Spares (w : Watched) : Action → Prop
  | .removePending predicate =>
    w.system.queue.activeTasks = [] → ∀ t ∈ w.outstanding, predicate t = true
  | _ => True

/-- The actions of `drain` and of what runs beside it, while the call waits. -/
def Beside (call : Nat) (a : Action) : Prop := a.isStop = false ∧ a ≠ .drainWoken call

/-- What holds while a call of `drain` waits: if it has been woken, nothing is outstanding. -/
structure Waiting (call : Nat) (w : Watched) : Prop where
  sound : w.system.queue.Sound
  held : ∀ t ∈ w.outstanding, t ∈ w.system.queue.held
  woken : w.system.queue.queue.finished.Resolved call → w.outstanding = []

variable {w w' : Watched} {call : Nat} {a : Action}

theorem next_eq_some (h : w.next a = some w') :
    ∃ l, w.system.step a = some (.ok (w'.system, l)) ∧
      w'.outstanding = w.outstanding.filter fun t => !l.settles t := by
  unfold next at h
  split at h
  · rename_i s l hstep
    cases h
    exact ⟨l, hstep, rfl⟩
  · cases h

theorem Waiting.step (h : w.Waiting call) (ha : a.isStop = false) (hspares : w.Spares a)
    (hnext : w.next a = some w') : w'.Waiting call := by
  obtain ⟨l, hstep, houtstanding⟩ := next_eq_some hnext
  obtain ⟨_, _, heq, hsteps⟩ := ParseSystem.steps_of_step h.sound hstep
  cases heq
  have hheld : ∀ t ∈ w'.outstanding, t ∈ w'.system.queue.held := by
    intro t ht
    rw [houtstanding, List.mem_filter, Bool.not_eq_true'] at ht
    rcases hsteps.kept ha t (h.held t ht.1) with hkept | hsettled
    · exact hkept
    · rw [ht.2] at hsettled
      cases hsettled
  refine ⟨hsteps.sound, hheld, fun hwoken => ?_⟩
  rcases hsteps.woken ha call hwoken with hbefore | hnone | ⟨predicate, rfl, hidle⟩
  · rw [houtstanding, h.woken hbefore]
    rfl
  · rw [hnone] at hheld
    exact List.eq_nil_iff_forall_not_mem.mpr fun t ht => List.not_mem_nil (hheld t ht)
  · -- every outstanding task is in the queue, and is removed
    obtain ⟨s', hremove, -⟩ := ParseSystem.steps_removePending h.sound predicate
    cases hremove.symm.trans hstep
    rw [houtstanding, List.filter_eq_nil_iff]
    intro t ht
    have hmem := h.held t ht
    rw [ParseQueue.held, hidle, List.append_nil] at hmem
    have hremoved : t ∈ w.system.queue.pendingTasks.filter predicate :=
      List.mem_filter.mpr ⟨hmem, hspares hidle t ht⟩
    simp [Label.settles, hremoved]

/-- A call of `drain` that has to wait. -/
theorem waiting_of_drain {s s₁ : ParseSystem} {l : Label} (h : s.queue.Sound)
    (hcall : s.step (.drain call) = some (.ok (s₁, l))) : Waiting call ⟨s₁, s.queue.held⟩ := by
  obtain ⟨⟨_, _⟩, hdrain, heq⟩ := Option.map_eq_some_iff.mp hcall
  cases heq
  have hsteps := ParseSystem.steps_drain (a := .drain call) h hdrain
  have hsettles : ∀ t, l.settles t = false := by
    unfold ParseSystem.drain at hdrain
    dsimp only at hdrain
    split at hdrain
    · cases hdrain
    · split at hdrain <;> cases hdrain <;> exact fun _ => rfl
  have hheld : ∀ t ∈ s.queue.held, t ∈ s₁.queue.held := by
    intro t ht
    refine (hsteps.kept rfl t ht).resolve_right ?_
    rw [hsettles t]
    exact Bool.false_ne_true
  refine ⟨hsteps.sound, hheld, fun hwoken => ?_⟩
  have hfresh : ¬s.queue.queue.finished.Resolved call := by
    rintro ⟨w, hw, htask, -⟩
    unfold ParseSystem.drain at hdrain
    dsimp only at hdrain
    rw [if_pos] at hdrain
    · cases hdrain
    · rw [Event.waiter?, List.find?_isSome]
      exact ⟨w, hw, decide_eq_true htask⟩
  rcases (hsteps.woken rfl call hwoken).resolve_left hfresh with hnone | ⟨predicate, hremove, -⟩
  · rw [hnone] at hheld
    exact List.eq_nil_iff_forall_not_mem.mpr fun t ht => List.not_mem_nil (hheld t ht)
  · cases hremove

end Watched

/-- A call of `drain` returns at once only if nothing is queued or active. -/
theorem ParseSystem.held_of_drained {s s₁ : ParseSystem} {call : Nat} (h : s.queue.Sound)
    (hcall : s.step (.drain call) = some (.ok (s₁, .drained))) : s.queue.held = [] := by
  obtain ⟨⟨_, _⟩, hdrain, heq⟩ := Option.map_eq_some_iff.mp hcall
  cases heq
  unfold ParseSystem.drain at hdrain
  dsimp only at hdrain
  split at hdrain
  · cases hdrain
  · split at hdrain
    · cases hdrain
    · rename_i hnone
      have hzero : s.queue.queue.unfinishedTasks = 0 := by
        by_contra hpos
        refine hnone ⟨Nat.pos_of_ne_zero hpos, ?_⟩
        rw [Bool.not_eq_true', ← Bool.not_eq_true]
        exact fun hset => hpos (h.consistent.mp hset)
      have hcount := h.unfinished
      have hitems : s.queue.queue.items = [] := List.eq_nil_of_length_eq_zero (by omega)
      have hactive : s.queue.activeTasks = [] := List.eq_nil_of_length_eq_zero (by omega)
      rw [ParseQueue.held, ParseQueue.pendingTasks, hitems, hactive]
      rfl

/-- A call of `drain` that was not cancelled has been woken. -/
theorem ParseSystem.resolved_of_drained {s s' : ParseSystem} {call : Nat}
    (h : s.step (.drainWoken call) = some (.ok (s', .drained))) :
    s.queue.queue.finished.Resolved call := by
  obtain ⟨⟨_, _⟩, hwoken, heq⟩ := Option.map_eq_some_iff.mp h
  cases heq
  unfold ParseSystem.drainWoken at hwoken
  dsimp only at hwoken
  split at hwoken
  · rename_i w hwaiter
    obtain ⟨hmem, htask⟩ := Event.mem_of_waiter? hwaiter
    split at hwoken
    · rename_i hdone
      refine ⟨w, hmem, htask, ?_⟩
      cases hfuture : w.future with
      | pending =>
        rw [Waiter.done, hfuture] at hdone
        cases hdone
      | resolved => rfl
      | cancelled =>
        have hraises : w.raises = true := by simp [Waiter.raises, hfuture]
        rw [hraises] at hwoken
        cases hwoken
    · cases hwoken
  · cases hwoken

/-- When `drain` returns, every task that was queued or active when it was called has been finished by
    a worker or removed, in every run in which no `remove_pending` that finds no task with a worker
    retains one of them. -/
theorem drain_settles_tasks {workerCount maxMessages maxBytes : Int} {q : ParseQueue}
    (hnew : ParseQueue.new workerCount maxMessages maxBytes = .ok q) {before : List Action}
    {s : ParseSystem} (hrun : Transition.run ParseSystem.next (.initial q) before = some s)
    {call : Nat} {s₁ : ParseSystem} {l : Label}
    (hcall : s.step (.drain call) = some (.ok (s₁, l))) :
    (l = .drained → s.queue.held = []) ∧
    ∀ actions w, (∀ a ∈ actions, Watched.Beside call a) →
      Transition.Along Watched.next Watched.Spares ⟨s₁, s.queue.held⟩ actions →
      Transition.run Watched.next ⟨s₁, s.queue.held⟩ actions = some w →
      ∀ s₂, w.system.step (.drainWoken call) = some (.ok (s₂, .drained)) → w.outstanding = [] := by
  have hsound := ParseSystem.sound_run (ParseQueue.sound_new hnew).1 hrun
  constructor
  · rintro rfl
    exact ParseSystem.held_of_drained hsound hcall
  · intro actions w hbeside halong hwatched s₂ hreturn
    have hwaiting : w.Waiting call := by
      clear hreturn
      have hstart := Watched.waiting_of_drain hsound hcall
      generalize (⟨s₁, s.queue.held⟩ : Watched) = w₀ at hstart halong hwatched
      induction actions generalizing w₀ with
      | nil =>
        cases hwatched
        exact hstart
      | cons a actions ih =>
        obtain ⟨w₁, hnext, hrest⟩ := Option.bind_eq_some_iff.mp hwatched
        obtain ⟨ha, hactions⟩ := List.forall_mem_cons.mp hbeside
        exact ih hactions w₁ (hstart.step ha.1 halong.1 hnext) (halong.2 w₁ hnext) hrest
    exact hwaiting.woken (ParseSystem.resolved_of_drained hreturn)

/-- `remove_pending` leaves a task behind a busy worker, the worker finishes, and `remove_pending` takes
    the task away. -/
def besideDrain : List Action :=
  [.takeTask 0, .removePending fun _ => false, .finishTask 0 .returned, .removePending fun _ => true]

theorem drain_settles_tasks_finished :
    ∃ q s s₁ w s₂, ParseQueue.new 1 10 100 = .ok q ∧
      Transition.run ParseSystem.next (.initial q) [.start, .tryEnqueue "a".toList 1, .tryEnqueue "b".toList 1] = some s ∧
      s.step (.drain 0) = some (.ok (s₁, .silent)) ∧
      Transition.run Watched.next ⟨s₁, s.queue.held⟩ besideDrain = some w ∧
      w.system.step (.drainWoken 0) = some (.ok (s₂, .drained)) ∧ w.outstanding = [] := by
  refine ⟨_, _, _, _, _, rfl, rfl, rfl, rfl, rfl, ?_⟩
  refine (@drain_settles_tasks 1 10 100 _ rfl [.start, .tryEnqueue "a".toList 1,
    .tryEnqueue "b".toList 1] _ rfl 0 _ _ rfl).2
    besideDrain _ ?_ ?_ rfl _ rfl
  · intro a ha
    simp only [besideDrain, List.mem_cons, List.not_mem_nil, or_false] at ha
    rcases ha with rfl | rfl | rfl | rfl <;> exact ⟨rfl, nofun⟩
  · refine ⟨trivial, ?_⟩
    rintro w₁ ⟨⟩
    refine ⟨?_, fun _ _ => ⟨trivial, fun _ _ => ⟨fun _ _ _ => rfl, fun _ _ => trivial⟩⟩⟩
    -- the first call finds the worker busy
    intro hidle
    cases hidle

/-- `remove_pending` retains the only task before a worker takes it: `drain` returns while the worker
    is busy with it. -/
theorem drain_wakes_early :
    ¬∀ q before s call s₁ l actions w s₂, ParseQueue.new 1 10 100 = .ok q →
      Transition.run ParseSystem.next (.initial q) before = some s →
      s.step (.drain call) = some (.ok (s₁, l)) →
      (∀ a ∈ actions, Watched.Beside call a) →
      Transition.run Watched.next ⟨s₁, s.queue.held⟩ actions = some w →
      w.system.step (.drainWoken call) = some (.ok (s₂, .drained)) → w.outstanding = [] := by
  intro hclaim
  have hearly := hclaim _ [.start, .tryEnqueue "msg".toList 1] _ 0 _ .silent
    [.removePending fun _ => false, .takeTask 0] _ _ rfl rfl rfl (by
      intro a ha
      rcases List.mem_pair.mp ha with rfl | rfl
      · exact ⟨rfl, nofun⟩
      · exact ⟨rfl, nofun⟩) rfl rfl
  cases hearly

end RapidInbox.Parser
